import ScriptModules.Script.Parse
import ScriptModules.Proofs.Scanning.Spelling

/-!
# What a parser reads

`Reads` is a triple for parsers: from tokens whose first one is of a certain kind, a parser that succeeds takes at
least so many tokens off the front, none of which is `invalid` or `eof`, and its result and the kind of the token that
comes next are as it should be.  There is one lemma for each of the small parsers that the rules are made of.

All triples are about tokens of which the proper ones satisfy a predicate `Seen`, so a result may tell what the tokens
were that it is made from.
-/

namespace ScriptModules.Script.Parser

/-- `rest` is what is left of the tokens after at least `n` proper ones. -/
def Takes (n : Nat) (tokens rest : List Token) : Prop :=
  ∃ own, tokens = own ++ rest ∧ n ≤ own.length ∧ ∀ token ∈ own, token.kind.isProper = true

theorem Takes.refl (tokens : List Token) : Takes 0 tokens tokens := ⟨[], rfl, Nat.le_refl _, by simp⟩

theorem Takes.trans {m n : Nat} {tokens middle rest : List Token} (h : Takes m tokens middle)
    (h' : Takes n middle rest) : Takes (m + n) tokens rest := by
  obtain ⟨own, rfl, hlen, hown⟩ := h
  obtain ⟨own', rfl, hlen', hown'⟩ := h'
  refine ⟨own ++ own', (List.append_assoc ..).symm, ?_, List.forall_mem_append.2 ⟨hown, hown'⟩⟩
  rw [List.length_append]
  exact Nat.add_le_add hlen hlen'

theorem Takes.any {n : Nat} {tokens rest : List Token} (h : Takes n tokens rest) : Takes 0 tokens rest := by
  obtain ⟨own, heq, _, hown⟩ := h
  exact ⟨own, heq, Nat.zero_le _, hown⟩

/-- What is left is shorter by what was taken. -/
theorem Takes.length_le {n : Nat} {tokens rest : List Token} (h : Takes n tokens rest) :
    rest.length + n ≤ tokens.length := by
  obtain ⟨own, rfl, hlen, _⟩ := h
  rw [List.length_append]
  omega

/-- The proper ones among the tokens satisfy `Seen`. -/
def Genuine (Seen : Kind → Prop) (tokens : List Token) : Prop :=
  ∀ token ∈ tokens, token.kind.isProper = true → Seen token.kind

/-- What is left of genuine tokens is genuine. -/
theorem Genuine.rest {Seen : Kind → Prop} {n : Nat} {tokens rest : List Token} (h : Genuine Seen tokens)
    (ht : Takes n tokens rest) : Genuine Seen rest := by
  obtain ⟨own, rfl, _⟩ := ht
  exact fun token hm => h token (List.mem_append_right _ hm)

/-- Some token as in `Seen` is the word, where any word may be a name. -/
def SeenWord (Seen : Kind → Prop) (word : String) : Prop :=
  Seen (.identifier word) ∨ ∃ kind, Seen kind ∧ kind.word? = some word

/-- From tokens of which the first is of a kind as in `pre`, the parser takes at least `n` proper tokens, and its value
and the kind of the token behind them are as in `post`; or it fails. -/
def Reads {α : Type} (Seen : Kind → Prop) (n : Nat) (pre : Kind → Prop) (p : Parser α) (post : α → Kind → Prop) :
    Prop :=
  ∀ tokens, Genuine Seen tokens → pre (current tokens).kind → ∀ value rest, p tokens = .ok (value, rest) →
    Takes n tokens rest ∧ post value (current rest).kind

theorem isProper_of_unaryOperator? {kind : Kind} {op : UnaryOperator} (h : unaryOperator? kind = some op) :
    kind.isProper = true := by
  unfold unaryOperator? at h
  split at h <;> first | rfl | contradiction

theorem bind_apply {α β : Type} (p : Parser α) (f : α → Parser β) (tokens : List Token) :
    (p >>= f) tokens = (p tokens >>= fun result => f result.1 result.2) := rfl

namespace Reads

variable {α β : Type} {Seen : Kind → Prop} {n : Nat} {pre : Kind → Prop} {p p' : Parser α} {f : α → Parser β}
  {post mid : α → Kind → Prop} {after : β → Kind → Prop}

/-! ## Rules of the triple -/

/-- A triple holds with less before and with more behind. -/
theorem weaken {pre' : Kind → Prop} {post' : α → Kind → Prop} (h : Reads Seen n pre' p post')
    (hpre : ∀ k, pre k → pre' k) (hpost : ∀ v k, post' v k → post v k) : Reads Seen n pre p post := by
  intro tokens hg hk value rest hp
  obtain ⟨ht, hv⟩ := h tokens hg (hpre _ hk) value rest hp
  exact ⟨ht, hpost _ _ hv⟩

/-- Whatever it has taken, it has taken some. -/
theorem any (h : Reads Seen n pre p post) : Reads Seen 0 pre p post := by
  intro tokens hg hk value rest hp
  obtain ⟨ht, hv⟩ := h tokens hg hk value rest hp
  exact ⟨ht.any, hv⟩

private theorem bind_add {m : Nat} (hp : Reads Seen m pre p mid)
    (hf : ∀ v k, mid v k → Reads Seen n (mid v) (f v) after) : Reads Seen (m + n) pre (p >>= f) after := by
  intro tokens hg hk value rest h
  rw [bind_apply] at h
  cases hpt : p tokens with
  | error e =>
    rw [hpt] at h
    contradiction
  | ok result =>
    obtain ⟨v, middle⟩ := result
    rw [hpt] at h
    obtain ⟨ht, hv⟩ := hp tokens hg hk v middle hpt
    obtain ⟨ht', hv'⟩ := hf v _ hv middle (hg.rest ht) hv value rest h
    exact ⟨ht.trans ht', hv'⟩

/-- One parser after the other, of which the second makes the progress. -/
theorem bind (hp : Reads Seen 0 pre p mid) (hf : ∀ v k, mid v k → Reads Seen n (mid v) (f v) after) :
    Reads Seen n pre (p >>= f) after := by
  simpa using bind_add hp hf

/-- One parser after the other, of which the first makes the progress. -/
theorem first (hp : Reads Seen n pre p mid) (hf : ∀ v k, mid v k → Reads Seen 0 (mid v) (f v) after) :
    Reads Seen n pre (p >>= f) after :=
  bind_add hp hf

theorem pure {v : α} (h : ∀ k, pre k → post v k) : Reads Seen 0 pre (pure v) post := by
  intro tokens _ hk value rest hp
  obtain ⟨rfl, rfl⟩ := Prod.mk.inj (Except.ok.inj hp)
  exact ⟨.refl tokens, h _ hk⟩

theorem fail {cause : SyntaxCause} : Reads Seen n pre (fail cause) post := by
  intro tokens _ _ value rest hp
  contradiction

theorem fail_bind {cause : SyntaxCause} : Reads Seen n pre (Parser.fail cause >>= f) after := by
  intro tokens _ _ value rest hp
  contradiction

theorem throw {fault : SyntaxFault} : Reads Seen n pre (throw fault : Parser α) post := by
  intro tokens _ _ value rest hp
  contradiction

theorem get : Reads Seen 0 pre (get : Parser (List Token)) fun _ k => pre k := by
  intro tokens _ hk value rest hp
  obtain ⟨rfl, rfl⟩ := Prod.mk.inj (Except.ok.inj hp)
  exact ⟨.refl tokens, hk⟩

theorem map {g : α → β} (hp : Reads Seen n pre p mid) (hg : ∀ v k, mid v k → after (g v) k) :
    Reads Seen n pre (g <$> p) after :=
  first hp fun v _ _ => pure (hg v)

theorem ite {c : Prop} [Decidable c] (ht : c → Reads Seen n pre p post) (hf : ¬c → Reads Seen n pre p' post) :
    Reads Seen n pre (if c then p else p') post := by
  split
  · exact ht ‹_›
  · exact hf ‹_›

/-! ## Single tokens -/

/-- A look at the next token takes nothing, and tells its kind. -/
theorem peek : Reads Seen 0 pre peek fun kind k => kind = k ∧ pre k ∧ (k.isProper = true → Seen k) := by
  intro tokens hg hk value rest hp
  obtain ⟨rfl, rfl⟩ := Prod.mk.inj (Except.ok.inj hp)
  refine ⟨.refl tokens, rfl, hk, ?_⟩
  cases tokens with
  | nil =>
    intro h
    contradiction
  | cons token tokens => exact hg token List.mem_cons_self

theorem advance {kind : Kind} (h : ∀ k, pre k → kind = k) (hk : kind.isProper = true) :
    Reads Seen 1 pre advance fun _ _ => True := by
  intro tokens _ hpre value rest hp
  obtain ⟨_, rfl⟩ := Prod.mk.inj (Except.ok.inj hp)
  refine ⟨?_, trivial⟩
  cases tokens with
  | nil =>
    obtain rfl := h _ hpre
    contradiction
  | cons token tokens =>
    obtain rfl := h _ hpre
    exact ⟨[token], rfl, Nat.le_refl _, List.forall_mem_singleton.2 hk⟩

private theorem peek_beq {kind : Kind} :
    Reads Seen 0 pre (return (← Parser.peek) == kind) fun b k => pre k ∧ (b = true ↔ k = kind) := by
  refine bind peek fun kind k _ => pure ?_
  rintro k ⟨rfl, hk, _⟩
  exact ⟨hk, by simp⟩

theorem atMark {mark : Mark} :
    Reads Seen 0 pre (atMark mark) fun b k => pre k ∧ (b = true ↔ k = .mark mark) := peek_beq

theorem atKeyword {word : Keyword} :
    Reads Seen 0 pre (atKeyword word) fun b k => pre k ∧ (b = true ↔ k = .keyword word) := peek_beq

theorem expect {mark : Mark} : Reads Seen 1 pre (expect mark) fun _ _ => True := by
  refine bind peek fun kind k _ => ite (fun h => ?_) fun _ => fail
  obtain rfl : kind = .mark mark := by simpa using h
  exact advance (fun _ hk => hk.1) rfl

/-- A token of a kind is taken if it is there. -/
private theorem advance_if {kind k : Kind} {b : Bool} (hproper : kind.isProper = true)
    (hb : pre k ∧ (b = true ↔ k = kind)) :
    Reads Seen 0 (fun k => pre k ∧ (b = true ↔ k = kind))
      (if b then (do Parser.advance; return true) else return false)
      fun b k => (b = true → pre kind) ∧ (b = false → pre k ∧ k ≠ kind) := by
  refine ite (fun h => ?_) fun h => pure fun k hk => ⟨by simp, fun _ => ?_⟩
  · have hpre : pre kind := hb.2.1 h ▸ hb.1
    exact bind (advance (fun k hk => (hk.2.1 h).symm) hproper).any fun _ _ _ => pure fun _ _ =>
      ⟨fun _ => hpre, by simp⟩
  · exact ⟨hk.1, fun hm => h (hk.2.2 hm)⟩

/-- A mark is taken if it comes; if it does not, nothing is. -/
theorem accept {mark : Mark} : Reads Seen 0 pre (accept mark)
    fun b k => (b = true → pre (.mark mark)) ∧ (b = false → pre k ∧ k ≠ .mark mark) :=
  bind atMark fun _ _ hb => advance_if rfl hb

theorem acceptKeyword {word : Keyword} : Reads Seen 0 pre (acceptKeyword word)
    fun b k => (b = true → pre (.keyword word)) ∧ (b = false → pre k ∧ k ≠ .keyword word) :=
  bind atKeyword fun _ _ hb => advance_if rfl hb

theorem identifier : Reads Seen 1 pre identifier fun name _ => Seen (.identifier name) := by
  refine bind peek fun kind k hk => ?_
  obtain ⟨rfl, _, hseen⟩ := hk
  split
  · exact first (advance (fun _ h => h.1) rfl) fun _ _ _ => pure fun _ _ => hseen rfl
  · exact fail

/-- The name of a property is that of a token, or spelled as one. -/
theorem propertyName : Reads Seen 1 pre propertyName fun name _ => SeenWord Seen name := by
  refine bind peek fun kind k hk => ?_
  obtain ⟨rfl, _, hseen⟩ := hk
  split
  · next word hword =>
    have hproper := Kind.isProper_of_word? hword
    exact first (advance (fun _ h => h.1) hproper) fun _ _ _ => pure fun _ _ => .inr ⟨kind, hseen hproper, hword⟩
  · exact identifier.weaken (fun _ => id) fun _ _ => .inl

/-! ## Loops -/

/-- What holds of each item that is read holds of all items between the brackets. -/
theorem itemsUntil {close : Mark} {P : α → Prop} (h : ∀ {pre}, Reads Seen 0 pre p fun v _ => P v) (fuel : Nat) :
    Reads Seen 0 pre (itemsUntil close p fuel) fun values _ => ∀ v ∈ values, P v := by
  induction fuel generalizing pre with
  | zero => exact fail
  | succ fuel ih =>
    refine bind accept fun b k _ => ite (fun _ => pure (by simp)) fun _ => ?_
    refine bind h fun v k hv => bind atMark fun b k _ => ?_
    have rest {pre : Kind → Prop} : Reads Seen 0 pre (do return v :: (← Parser.itemsUntil close p fuel))
        fun values _ => ∀ v ∈ values, P v :=
      bind ih fun values k hvalues => pure fun _ _ => List.forall_mem_cons.2 ⟨hv, hvalues⟩
    exact ite (fun _ => rest) fun _ => bind expect.any fun _ _ _ => rest

end Reads

end ScriptModules.Script.Parser
