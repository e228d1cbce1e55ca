import ScriptModules.Proofs.Parsing.Print
import ScriptModules.Proofs.Parsing.Reading

/-!
# What a parser makes of given tokens

`Yields p kinds stop v`: from tokens of these kinds, and whatever comes after them if only its first kind is as in
`stop`, the parser reads just these and gives `v`.  A loop of the parser goes on where something else has got to, so
there is `Goes`, where another parser takes over what comes after, and `Enters`, where this is a loop with enough rounds
left.

A parser that meets more nesting than it has levels for fails.  The results may differ by that (`Agrees`) where `deep`
allows it.
-/

namespace ScriptModules.Script

/-- The two results are equal, or the first one is that nesting is too deep. -/
def Agrees {α : Type} (deep : Prop) (result result' : Except SyntaxFault (α × List Token)) : Prop :=
  result = result' ∨ deep ∧ ∃ offset, result = .error ⟨.tooDeep, offset⟩

namespace Agrees

variable {α : Type} {deep : Prop} {r r' r'' : Except SyntaxFault (α × List Token)}

private theorem refl : Agrees deep r r := .inl rfl

private theorem trans (h : Agrees deep r r') (h' : Agrees deep r' r'') : Agrees deep r r'' := by
  obtain rfl | h := h
  · exact h'
  · exact .inr h

end Agrees

namespace Parser

/-- Any kind may come next. -/
def anything (_ : Kind) : Prop := True

/-- From tokens of these kinds the parser gets to where `next` goes on. -/
def Goes {α : Type} (deep : Prop) (rounds : Nat) (p : Parser α) (kinds : List Kind) (stop : Kind → Prop)
    (next : Parser α) : Prop :=
  ∀ own rest, own.map Token.kind = kinds → (own ++ rest).length ≤ rounds → stop (current rest).kind →
    Agrees deep (p (own ++ rest)) (next rest)

/-- From tokens of these kinds the parser gives `v`. -/
def Yields {α : Type} (deep : Prop) (rounds : Nat) (p : Parser α) (kinds : List Kind) (stop : Kind → Prop) (v : α) :
    Prop :=
  Goes deep rounds p kinds stop (pure v)

/-- From tokens of these kinds the parser gets into the loop, with a round left for each token. -/
def Enters {α : Type} (deep : Prop) (rounds : Nat) (p : Parser α) (kinds : List Kind) (stop : Kind → Prop)
    (loop : Nat → Parser α) : Prop :=
  ∀ own rest, own.map Token.kind = kinds → (own ++ rest).length ≤ rounds → stop (current rest).kind →
    ∃ fuel, rest.length ≤ fuel ∧ Agrees deep (p (own ++ rest)) (loop fuel rest)

/-- The kind that comes first, of these kinds with `after` behind them. -/
theorem kind_current_append {kinds : List Kind} {own rest : List Token} (h : own.map Token.kind = kinds) :
    (current (own ++ rest)).kind = kinds.headD (current rest).kind := by
  subst h
  cases own <;> rfl

section

variable {α β : Type} {deep : Prop} {rounds : Nat} {p p' : Parser α} {f : α → Parser β}
  {kinds kinds' : List Kind} {kind : Kind} {stop stop' : Kind → Prop} {v : α} {next : Parser β}

private theorem agrees_bind {tokens rest : List Token} (h : Agrees deep (p tokens) (.ok (v, rest))) :
    Agrees deep ((p >>= f) tokens) (f v rest) := by
  obtain h | ⟨hdeep, offset, h⟩ := h
  · exact .inl (by rw [bind_apply, h]; rfl)
  · exact .inr ⟨hdeep, offset, by rw [bind_apply, h]; rfl⟩

namespace Goes

theorem refl : Goes deep rounds p [] stop p := by
  intro own rest hown _ _
  obtain rfl := List.map_eq_nil_iff.1 hown
  exact .refl

theorem weaken {next : Parser α} (h : Goes deep rounds p kinds stop next) (hs : ∀ k, stop' k → stop k) :
    Goes deep rounds p kinds stop' next :=
  fun own rest hown hlen hk => h own rest hown hlen (hs _ hk)

theorem mono {next : Parser α} {rounds' : Nat} (h : Goes deep rounds p kinds stop next) (hr : rounds' ≤ rounds) :
    Goes deep rounds' p kinds stop next :=
  fun own rest hown hlen hk => h own rest hown (Nat.le_trans hlen hr) hk

/-! ## Rules of the judgement -/

/-- One parser after the other: what the second one reads has to begin as the first one needs it, and what the first one
has read is not left for it. -/
theorem bind_of_le {rounds' : Nat} (hp : Yields deep rounds p kinds stop v)
    (hf : Goes deep rounds' (f v) kinds' stop' next) (hr : rounds ≤ kinds.length + rounds')
    (hstop : ∀ k, stop' k → stop (kinds'.headD k)) : Goes deep rounds (p >>= f) (kinds ++ kinds') stop' next := by
  intro own rest hown hlen hk
  obtain ⟨own₁, own₂, rfl, h₁, h₂⟩ := List.map_eq_append_iff.1 hown
  rw [List.append_assoc] at hlen ⊢
  have hk₁ : stop (current (own₂ ++ rest)).kind := by
    rw [kind_current_append h₂]
    exact hstop _ hk
  have hlen₂ : (own₂ ++ rest).length ≤ rounds' := by
    rw [List.length_append, ← List.length_map, h₁] at hlen
    omega
  exact (agrees_bind (hp own₁ _ h₁ hlen hk₁)).trans (hf own₂ rest h₂ hlen₂ hk)

/-- One parser after the other: what the second one reads has to begin as the first one needs it. -/
theorem bind (hp : Yields deep rounds p kinds stop v) (hf : Goes deep rounds (f v) kinds' stop' next)
    (hstop : ∀ k, stop' k → stop (kinds'.headD k)) : Goes deep rounds (p >>= f) (kinds ++ kinds') stop' next :=
  bind_of_le hp hf (Nat.le_add_left _ _) hstop

theorem bind_last (hp : Yields deep rounds p kinds stop v) : Goes deep rounds (p >>= f) kinds stop (f v) :=
  fun own rest hown hlen hk => agrees_bind (hp own rest hown hlen hk)

/-- One parser after the other, where anything may come behind the first one. -/
theorem bind_any (hp : Yields deep rounds p kinds anything v) (hf : Goes deep rounds (f v) kinds' stop' next) :
    Goes deep rounds (p >>= f) (kinds ++ kinds') stop' next :=
  bind hp hf fun _ _ => trivial

/-- One parser after the other, of which the first reads a single token. -/
theorem bind_cons (hp : Yields deep rounds p [kind] anything v) (hf : Goes deep rounds (f v) kinds stop next) :
    Goes deep rounds (p >>= f) (kind :: kinds) stop next :=
  bind_any hp hf

/-- One parser after the other, of which the second reads no tokens. -/
theorem bind_nil (hp : Yields deep rounds p kinds stop v) (hf : Goes deep rounds (f v) [] stop' next)
    (hstop : ∀ k, stop' k → stop k) : Goes deep rounds (p >>= f) kinds stop' next := by
  simpa using bind hp hf hstop

/-- What the first parser has read is not left for the second one. -/
theorem bind_less {n : Nat} (hp : Yields deep (n + 1) p (kind :: kinds) stop v)
    (hf : Goes deep n (f v) kinds' stop' next) (hstop : ∀ k, stop' k → stop (kinds'.headD k)) :
    Goes deep (n + 1) (p >>= f) (kind :: kinds ++ kinds') stop' next := by
  refine bind_of_le hp hf ?_ hstop
  rw [List.length_cons]
  omega

theorem bind_cons_less {n : Nat} (hp : Yields deep (n + 1) p [kind] anything v)
    (hf : Goes deep n (f v) kinds stop next) : Goes deep (n + 1) (p >>= f) (kind :: kinds) stop next :=
  bind_less hp hf fun _ _ => trivial

theorem pure_bind (h : Goes deep rounds (f v) kinds stop next) : Goes deep rounds (pure v >>= f) kinds stop next := h

theorem assoc {γ : Type} {g : β → Parser γ} {next : Parser γ}
    (h : Goes deep rounds ((p >>= f) >>= g) kinds stop next) :
    Goes deep rounds (p >>= fun v => f v >>= g) kinds stop next := by
  rwa [bind_assoc] at h

theorem zero {next : Parser α} : Goes deep 0 p (kind :: kinds) stop next := by
  intro own rest hown hlen _
  obtain ⟨token, own, rfl, _⟩ := List.map_eq_cons_iff.1 hown
  simp at hlen

theorem ite_true {c : Prop} [Decidable c] {next : Parser α} (hc : c) (h : Goes deep rounds p kinds stop next) :
    Goes deep rounds (if c then p else p') kinds stop next := by
  rwa [if_pos hc]

theorem ite_false {c : Prop} [Decidable c] {next : Parser α} (hc : ¬c) (h : Goes deep rounds p' kinds stop next) :
    Goes deep rounds (if c then p else p') kinds stop next := by
  rwa [if_neg hc]

/-- A parser that only looks at the kind that comes next. -/
theorem look (hp : ∀ k, stop k → ∀ tokens, (current tokens).kind = kinds.headD k → p tokens = .ok (v, tokens))
    (h : Goes deep rounds (f v) kinds stop next) : Goes deep rounds (p >>= f) kinds stop next := by
  intro own rest hown hlen hk
  rw [bind_apply, hp _ hk _ (kind_current_append hown)]
  exact h own rest hown hlen hk

/-! ## Single tokens -/

section

variable {f : Unit → Parser β} {g : Bool → Parser β} {m : Mark} {w : Keyword}

/-- A look at the next token goes on with its kind. -/
theorem peek {f : Kind → Parser β} (h : Goes deep rounds (f kind) (kind :: kinds) stop next) :
    Goes deep rounds (peek >>= f) (kind :: kinds) stop next := by
  refine look (fun k _ tokens hk => ?_) h
  rw [List.headD_cons] at hk
  rw [Parser.peek, hk]

theorem peek_nil {f : Kind → Parser β} (h : ∀ k, stop k → f k = next) :
    Goes deep rounds (Parser.peek >>= f) [] stop next := by
  intro own rest hown _ hk
  obtain rfl := List.map_eq_nil_iff.1 hown
  exact .inl (congrFun (h _ hk) rest)

theorem get {f : List Token → Parser β} (h : ∀ tokens, Goes deep rounds (f tokens) kinds stop next) :
    Goes deep rounds (get >>= f) kinds stop next :=
  fun own rest hown hlen hk => h (own ++ rest) own rest hown hlen hk

private theorem advance_last : Yields deep rounds Parser.advance [kind] stop () := by
  intro own rest hown _ _
  obtain ⟨token, own, rfl, _, hown⟩ := List.map_eq_cons_iff.1 hown
  obtain rfl := List.map_eq_nil_iff.1 hown
  exact .refl

theorem advance (h : Goes deep rounds (f ()) kinds stop next) :
    Goes deep rounds (advance >>= f) (kind :: kinds) stop next :=
  bind_cons advance_last h

theorem expect (h : Goes deep rounds (f ()) kinds stop next) :
    Goes deep rounds (expect m >>= f) (.mark m :: kinds) stop next := by
  have hexpect : Yields deep rounds (Parser.expect m) [.mark m] anything () :=
    peek (ite_true (by simp) advance_last)
  exact bind_cons hexpect h

private theorem atMark_eq (tokens : List Token) :
    Parser.atMark m tokens = .ok ((current tokens).kind == .mark m, tokens) := rfl

private theorem atKeyword_eq (tokens : List Token) :
    Parser.atKeyword w tokens = .ok ((current tokens).kind == .keyword w, tokens) := rfl

/-- The mark comes next. -/
theorem atMark (h : Goes deep rounds (g true) (.mark m :: kinds) stop next) :
    Goes deep rounds (atMark m >>= g) (.mark m :: kinds) stop next := by
  refine look (fun k _ tokens hk => ?_) h
  rw [List.headD_cons] at hk
  rw [atMark_eq, hk, beq_self_eq_true]

/-- Something else than the mark comes next. -/
theorem not_atMark (hm : ∀ k, stop k → kinds.headD k ≠ .mark m) (h : Goes deep rounds (g false) kinds stop next) :
    Goes deep rounds (Parser.atMark m >>= g) kinds stop next := by
  refine look (fun k hk tokens hkind => ?_) h
  rw [atMark_eq, hkind, beq_eq_false_iff_ne.2 (hm k hk)]

theorem atKeyword (h : Goes deep rounds (g true) (.keyword w :: kinds) stop next) :
    Goes deep rounds (atKeyword w >>= g) (.keyword w :: kinds) stop next := by
  refine look (fun k _ tokens hk => ?_) h
  rw [List.headD_cons] at hk
  rw [atKeyword_eq, hk, beq_self_eq_true]

theorem not_atKeyword (hw : ∀ k, stop k → kinds.headD k ≠ .keyword w)
    (h : Goes deep rounds (g false) kinds stop next) : Goes deep rounds (Parser.atKeyword w >>= g) kinds stop next := by
  refine look (fun k hk tokens hkind => ?_) h
  rw [atKeyword_eq, hkind, beq_eq_false_iff_ne.2 (hw k hk)]

theorem accept (h : Goes deep rounds (g true) kinds stop next) :
    Goes deep rounds (accept m >>= g) (.mark m :: kinds) stop next := by
  have haccept : Yields deep rounds (Parser.accept m) [.mark m] anything true :=
    atMark (ite_true rfl (advance refl))
  exact bind_cons haccept h

theorem not_accept (hm : ∀ k, stop k → kinds.headD k ≠ .mark m) (h : Goes deep rounds (g false) kinds stop next) :
    Goes deep rounds (Parser.accept m >>= g) kinds stop next := by
  have haccept : Yields deep rounds (Parser.accept m) [] (fun k => k ≠ .mark m) false :=
    not_atMark (fun _ hk => hk) (ite_false (by simp) refl)
  exact bind haccept h hm

theorem acceptKeyword (h : Goes deep rounds (g true) kinds stop next) :
    Goes deep rounds (acceptKeyword w >>= g) (.keyword w :: kinds) stop next := by
  have haccept : Yields deep rounds (Parser.acceptKeyword w) [.keyword w] anything true :=
    atKeyword (ite_true rfl (advance refl))
  exact bind_cons haccept h

theorem not_acceptKeyword (hw : ∀ k, stop k → kinds.headD k ≠ .keyword w)
    (h : Goes deep rounds (g false) kinds stop next) :
    Goes deep rounds (Parser.acceptKeyword w >>= g) kinds stop next := by
  have haccept : Yields deep rounds (Parser.acceptKeyword w) [] (fun k => k ≠ .keyword w) false :=
    not_atKeyword (fun _ hk => hk) (ite_false (by simp) refl)
  exact bind haccept h hw

theorem identifier {name : String} : Yields deep rounds identifier [.identifier name] stop name :=
  peek (advance refl)

/-- The name of a property is read from the token that spells it, a keyword, a literal or a name. -/
theorem propertyName (word : String) : Yields deep rounds propertyName [.ofWord word] stop word := by
  refine peek ?_
  obtain ⟨w, hw, rfl⟩ | hw | hw := @Kind.text_of_ofWord word _ rfl
  · rw [hw]
    exact advance refl
  · rw [hw]
    exact advance refl
  · rw [hw]
    exact identifier

end

theorem map {γ : Type} {g : α → γ} (hp : Yields deep rounds p kinds stop v) :
    Yields deep rounds (g <$> p) kinds stop (g v) :=
  bind_last (f := fun v => Pure.pure (g v)) hp

end Goes

/-! ## Loops -/

/-- What is written for an item of a list reads back, and it is not empty and does not begin as the list ends. -/
structure Item (deep : Prop) (rounds : Nat) (close : Mark) (item : Parser α) (kinds : List Kind) (v : α) : Prop where
  head : ∃ kind rest, kinds = kind :: rest ∧ kind ≠ .mark close
  yields : Yields deep rounds item kinds (fun k => k = .mark .comma ∨ k = .mark close) v

/-- Items that are written one after the other, with commas between them, are read up to the end of the list. -/
theorem Goes.itemsUntil {close : Mark} (hclose : close ≠ .comma) {kindsOf : α → List Kind} {items : List α} {fuel : Nat}
    (hfuel : fuel ≤ rounds) (h : ∀ item ∈ items, Item deep rounds close p (kindsOf item) item) :
    Yields deep fuel (itemsUntil close p fuel) (separated (items.map kindsOf) ++ [.mark close]) stop items := by
  induction items generalizing fuel with
  | nil =>
    cases fuel with
    | zero => exact zero
    | succ fuel => exact accept (ite_true rfl refl)
  | cons first items ih =>
    obtain ⟨hfirst, hitems⟩ := List.forall_mem_cons.1 h
    obtain ⟨kind, rest, hkinds, hkind⟩ := hfirst.head
    cases fuel with
    | zero => cases items <;> simp only [List.map_cons, List.map_nil, separated, hkinds] <;> exact zero
    | succ fuel =>
      have hfirst := hfirst.yields.mono hfuel
      have hrest := ih (Nat.le_of_succ_le hfuel) hitems
      rw [hkinds] at hfirst
      cases items with
      | nil =>
        rw [List.map_cons, List.map_nil, separated, hkinds]
        refine not_accept (fun _ _ => hkind) (ite_false (by simp) ?_)
        exact bind_less hfirst (atMark (ite_true rfl (bind_last hrest))) fun _ _ => .inr rfl
      | cons second items =>
        rw [List.map_cons, List.map_cons, separated_cons_cons, hkinds, List.append_assoc, List.cons_append]
        refine not_accept (fun _ _ => hkind) (ite_false (by simp) ?_)
        refine bind_less hfirst (not_atMark (fun _ _ h => ?_) (ite_false (by simp) (expect ?_))) fun _ _ => .inl rfl
        · exact hclose (Kind.mark.inj h).symm
        · exact bind_last hrest

namespace Enters

variable {loop : Nat → Parser α}

/-- A loop begins with all its rounds. -/
theorem of_goes (h : Goes deep rounds p kinds stop (loop rounds)) : Enters deep rounds p kinds stop loop := by
  intro own rest hown hlen hk
  rw [List.length_append] at hlen
  exact ⟨rounds, by omega, h own rest hown (by rwa [List.length_append]) hk⟩

/-- The loop takes a round, for which there is a token. -/
theorem step {loop' : Nat → Parser α} (h : Enters deep rounds p kinds stop loop)
    (hloop : ∀ fuel, Goes deep rounds (loop (fuel + 1)) (kind :: kinds') stop' (loop' fuel)) (hstop : stop kind) :
    Enters deep rounds p (kinds ++ kind :: kinds') stop' loop' := by
  intro own rest hown hlen hk
  obtain ⟨own₁, own₂, rfl, h₁, h₂⟩ := List.map_eq_append_iff.1 hown
  rw [List.append_assoc] at hlen ⊢
  have hk₁ : stop (current (own₂ ++ rest)).kind := by
    rw [kind_current_append h₂]
    exact hstop
  obtain ⟨fuel, hfuel, hgoes⟩ := h own₁ _ h₁ hlen hk₁
  have hown₂ : own₂.length = kinds'.length + 1 := by
    rw [← List.length_map, h₂, List.length_cons]
  simp only [List.length_append] at hlen hfuel
  obtain ⟨fuel, rfl⟩ : ∃ n, fuel = n + 1 := ⟨fuel - 1, by omega⟩
  refine ⟨fuel, by omega, hgoes.trans (hloop fuel own₂ rest h₂ ?_ hk)⟩
  rw [List.length_append]
  omega

/-- The loop ends where nothing is left for it. -/
theorem close (h : Enters deep rounds p kinds stop loop) (hstop : ∀ k, stop' k → stop k)
    (hloop : ∀ fuel, Goes deep rounds (loop fuel) [] stop' (pure v)) : Yields deep rounds p kinds stop' v := by
  intro own rest hown hlen hk
  obtain ⟨fuel, _, hgoes⟩ := h own rest hown hlen (hstop _ hk)
  refine hgoes.trans (hloop fuel [] rest rfl ?_ hk)
  rw [List.length_append] at hlen
  exact Nat.le_trans (Nat.le_add_left _ _) hlen

end Enters

end
end Parser
end ScriptModules.Script
