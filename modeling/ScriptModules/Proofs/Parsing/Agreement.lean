import ScriptModules.Proofs.Parsing.Loops
import ScriptModules.Proofs.Parsing.Reading

/-!
# Parsers that agree

`Agree` relates two parsers on two rows of tokens that differ in nothing but where their tokens start.  Both take the
same number of tokens, all of them proper, and give the same value, or both fail for the same cause at a token that
stands at the same place of its row.  The two parsers are versions of one rule whose loops may take different numbers of rounds;
what `Agree` asks is asked of rows that are no longer than that.  A loop agrees with itself if its rounds do and each of
them that is not the last takes a token (`Agree.loop`).
-/

namespace ScriptModules.Script.Parser

/-- The rows differ in nothing but where their tokens start. -/
def SameKinds (tokens tokens' : List Token) : Prop := tokens.map (·.kind) = tokens'.map (·.kind)

theorem SameKinds.current {tokens tokens' : List Token} (h : SameKinds tokens tokens') :
    (current tokens).kind = (current tokens').kind := by
  cases tokens <;> cases tokens' <;> simp_all [SameKinds, Parser.current]

/-- The row holds a token that is the end of a text. -/
def Ended (tokens : List Token) : Prop := ∃ token ∈ tokens, token.kind = .eof

/-- `rest` and `rest'` are what is left of the rows after at least `n` proper tokens of the same kinds. -/
def Abreast (n : Nat) (tokens tokens' rest rest' : List Token) : Prop :=
  ∃ own own', tokens = own ++ rest ∧ tokens' = own' ++ rest' ∧ SameKinds own own' ∧ n ≤ own.length ∧
    ∀ token ∈ own, token.kind.isProper = true

namespace Abreast

variable {m n : Nat} {tokens tokens' middle middle' rest rest' : List Token}

theorem refl : Abreast 0 tokens tokens' tokens tokens' := ⟨[], [], rfl, rfl, rfl, Nat.le_refl _, by simp⟩

private theorem trans (h : Abreast m tokens tokens' middle middle') (h' : Abreast n middle middle' rest rest') :
    Abreast (m + n) tokens tokens' rest rest' := by
  obtain ⟨own, own', rfl, rfl, hs, hlen, hproper⟩ := h
  obtain ⟨more, more', rfl, rfl, hs', hlen', hproper'⟩ := h'
  refine ⟨own ++ more, own' ++ more', (List.append_assoc ..).symm, (List.append_assoc ..).symm, ?_, ?_,
    List.forall_mem_append.2 ⟨hproper, hproper'⟩⟩
  · rw [SameKinds, List.map_append, List.map_append, hs, hs']
  · rw [List.length_append]
    exact Nat.add_le_add hlen hlen'

private theorem least (h : Abreast n tokens tokens' rest rest') (hm : m ≤ n) : Abreast m tokens tokens' rest rest' := by
  obtain ⟨own, own', heq, heq', hs, hlen, hproper⟩ := h
  exact ⟨own, own', heq, heq', hs, Nat.le_trans hm hlen, hproper⟩

theorem takes (h : Abreast n tokens tokens' rest rest') : Takes n tokens rest := by
  obtain ⟨own, _, heq, _, _, hlen, hproper⟩ := h
  exact ⟨own, heq, hlen, hproper⟩

theorem sameKinds (h : Abreast n tokens tokens' rest rest') (hs : SameKinds tokens tokens') : SameKinds rest rest' := by
  obtain ⟨own, own', rfl, rfl, hown, _, _⟩ := h
  rw [SameKinds, List.map_append, List.map_append] at hs
  exact (List.append_inj hs (congrArg List.length hown)).2

/-- What is left of one row is left of it both times. -/
theorem rest_eq (h : Abreast n tokens tokens rest rest') : rest = rest' := by
  obtain ⟨own, own', rfl, heq, hown, _, _⟩ := h
  refine (List.append_inj heq ?_).2
  simpa using congrArg List.length hown

/-- The end of a text is not taken. -/
theorem ended (h : Abreast n tokens tokens' rest rest') (he : Ended tokens) : Ended rest := by
  obtain ⟨own, _, rfl, _, _, _, hproper⟩ := h
  obtain ⟨token, hm, hk⟩ := he
  refine ⟨token, (List.mem_append.1 hm).resolve_left fun hown => ?_, hk⟩
  have hp := hproper token hown
  rw [hk] at hp
  contradiction

end Abreast

/-- How parsing the two rows may end, where a value is made from at least so many tokens. -/
inductive SameOutcome {α : Type} (least : α → Nat) (tokens tokens' : List Token) :
    Except SyntaxFault (α × List Token) → Except SyntaxFault (α × List Token) → Prop
  | ok (value : α) {rest rest' : List Token} : Abreast (least value) tokens tokens' rest rest' →
      SameOutcome least tokens tokens' (.ok (value, rest)) (.ok (value, rest'))
  | error (cause : SyntaxCause) {rest rest' : List Token} : Abreast 0 tokens tokens' rest rest' →
      SameOutcome least tokens tokens' (.error ⟨cause, (current rest).start⟩) (.error ⟨cause, (current rest').start⟩)

theorem SameOutcome.after {α : Type} {least least' : α → Nat} {m : Nat} {tokens tokens' middle middle' : List Token}
    {x x' : Except SyntaxFault (α × List Token)} (h : SameOutcome least' middle middle' x x')
    (ha : Abreast m tokens tokens' middle middle') (hl : ∀ value, least value ≤ m + least' value) :
    SameOutcome least tokens tokens' x x' := by
  cases h with
  | ok value h => exact .ok value ((ha.trans h).least (hl value))
  | error cause h => exact .error cause ((ha.trans h).least (Nat.zero_le _))

/-- The parsers do the same on rows of the same kinds that have at most `k` tokens, the last one of a text among them,
and of which the first is of a kind as in `pre`. -/
def Agree {α : Type} (k : Nat) (least : α → Nat) (pre : Kind → Prop) (p p' : Parser α) : Prop :=
  ∀ tokens tokens', SameKinds tokens tokens' → Ended tokens → tokens.length ≤ k → pre (current tokens).kind →
    SameOutcome least tokens tokens' (p tokens) (p' tokens')

namespace Agree

variable {α β σ : Type} {k k' : Nat} {least least' : α → Nat} {pre pre' : Kind → Prop} {p p' q q' : Parser α}
  {f f' : α → Parser β} {enough : β → Nat}

/-! ## Rules -/

theorem weaken (h : Agree k' least' pre' p p') (hk : k ≤ k') (hpre : ∀ kind, pre kind → pre' kind)
    (hl : ∀ value, least value ≤ least' value) : Agree k least pre p p' :=
  fun tokens tokens' hs he hlen hp =>
    (h tokens tokens' hs he (Nat.le_trans hlen hk) (hpre _ hp)).after .refl (by simpa using hl)

/-- Whatever they take, they take some. -/
theorem any (h : Agree k least pre p p') : Agree k (fun _ => 0) pre p p' :=
  h.weaken (Nat.le_refl _) (fun _ => id) fun _ => Nat.zero_le _

private theorem bind_add (enough : β → Nat) (hp : Agree k least pre p p')
    (hf : ∀ v, Agree (k - least v) enough (fun _ => True) (f v) (f' v)) {total : β → Nat}
    (ht : ∀ v w, total w ≤ least v + enough w) : Agree k total pre (p >>= f) (p' >>= f') := by
  intro tokens tokens' hs he hlen hpre
  have h := hp tokens tokens' hs he hlen hpre
  rw [bind_apply, bind_apply]
  generalize p tokens = x at h
  generalize p' tokens' = x' at h
  cases h with
  | error cause h => exact .error cause h
  | ok v h =>
    have hrest := h.takes.length_le
    exact (hf v _ _ (h.sameKinds hs) (h.ended he) (by omega) trivial).after h (ht v)

/-- One parser after the other, of which the second makes the progress. -/
theorem bind (hp : Agree k (fun _ => 0) pre p p') (hf : ∀ v, Agree k enough (fun _ => True) (f v) (f' v)) :
    Agree k enough pre (p >>= f) (p' >>= f') :=
  bind_add enough hp hf fun _ _ => by simp

/-- One parser after the other, of which the first makes the progress. -/
theorem first (hp : Agree k (fun _ => 1) pre p p')
    (hf : ∀ v, Agree k (fun _ => 0) (fun _ => True) (f v) (f' v)) : Agree k (fun _ => 1) pre (p >>= f) (p' >>= f') :=
  bind_add (fun _ => 0) hp (fun v => (hf v).weaken (Nat.sub_le ..) (fun _ => id) fun _ => Nat.le_refl _)
    fun _ _ => by simp

theorem pure {v : α} (h : least v = 0) : Agree k least pre (pure v) (pure v) :=
  fun _ _ _ _ _ _ => .ok v (h ▸ .refl)

theorem map {g : α → β} (hp : Agree k (fun _ => 1) pre p p') : Agree k (fun _ => 1) pre (g <$> p) (g <$> p') :=
  first hp fun _ => pure rfl

theorem fail {cause : SyntaxCause} : Agree k least pre (fail cause) (fail cause) :=
  fun _ _ _ _ _ _ => .error cause .refl

theorem ite {c : Prop} [Decidable c] (ht : c → Agree k least pre p p') (hf : ¬c → Agree k least pre q q') :
    Agree k least pre (if c then p else q) (if c then p' else q') := by
  split
  · exact ht ‹_›
  · exact hf ‹_›

/-! ## Single tokens -/

/-- Having looked at the next token, two parsers may rest on its kind. -/
theorem peek_bind {f f' : Kind → Parser α}
    (h : ∀ kind, pre kind → Agree k least (fun kind' => kind = kind') (f kind) (f' kind)) :
    Agree k least pre (peek >>= f) (peek >>= f') := by
  intro tokens tokens' hs he hlen hpre
  have hrun := h _ hpre tokens tokens' hs he hlen rfl
  rwa [show f' (current tokens).kind tokens' = (peek >>= f') tokens' by rw [hs.current]; rfl] at hrun

private theorem at_bind {kind : Kind} {f f' : Bool → Parser α}
    (h : ∀ b, Agree k least (fun kind' => pre kind' ∧ (b = true → kind = kind')) (f b) (f' b)) :
    Agree k least pre (peek >>= fun kind' => f (kind' == kind)) (peek >>= fun kind' => f' (kind' == kind)) := by
  refine peek_bind fun kind' hk => (h _).weaken (Nat.le_refl _) ?_ fun _ => Nat.le_refl _
  rintro _ rfl
  exact ⟨hk, fun hb => (beq_iff_eq.1 hb).symm⟩

/-- Having asked for a mark, two parsers may rest on the answer. -/
theorem atMark_bind {mark : Mark} {f f' : Bool → Parser α}
    (h : ∀ b, Agree k least (fun kind => pre kind ∧ (b = true → .mark mark = kind)) (f b) (f' b)) :
    Agree k least pre (atMark mark >>= f) (atMark mark >>= f') := at_bind h

theorem atKeyword_bind {word : Keyword} {f f' : Bool → Parser α}
    (h : ∀ b, Agree k least (fun kind => pre kind ∧ (b = true → .keyword word = kind)) (f b) (f' b)) :
    Agree k least pre (atKeyword word >>= f) (atKeyword word >>= f') := at_bind h

/-- A proper token is taken from both rows. -/
theorem advance {kind : Kind} (h : ∀ kind', pre kind' → kind = kind') (hproper : kind.isProper = true) :
    Agree k (fun _ => 1) pre advance advance := by
  intro tokens tokens' hs _ _ hpre
  obtain rfl := h _ hpre
  cases tokens with
  | nil => contradiction
  | cons token tokens =>
    cases tokens' with
    | nil => simp [SameKinds] at hs
    | cons token' tokens' =>
      obtain ⟨hkind, _⟩ := List.cons.inj hs
      exact .ok () ⟨[token], [token'], rfl, rfl, congrArg (fun kind => [kind]) hkind, Nat.le_refl _,
        List.forall_mem_singleton.2 hproper⟩

theorem expect {mark : Mark} : Agree k (fun _ => 1) pre (expect mark) (expect mark) :=
  peek_bind fun kind _ => ite
    (fun h => advance (fun _ hk => hk) (by rw [beq_iff_eq.1 h]; rfl)) fun _ => fail

/-- A token of a kind is taken if it is there. -/
private theorem advance_if {kind : Kind} (hproper : kind.isProper = true) (b : Bool) :
    Agree k (fun b => if b then 1 else 0) (fun kind' => pre kind' ∧ (b = true → kind = kind'))
      (if b then (do Parser.advance; return true) else return false)
      (if b then (do Parser.advance; return true) else return false) :=
  ite
    (fun hb => (first (advance (fun _ h => h.2 hb) hproper) fun _ => pure rfl).weaken (Nat.le_refl _) (fun _ => id)
      fun b => by cases b <;> simp)
    fun _ => pure rfl

theorem accept {mark : Mark} : Agree k (fun b => if b then 1 else 0) pre (accept mark) (accept mark) :=
  atMark_bind fun b => advance_if rfl b

theorem acceptKeyword {word : Keyword} :
    Agree k (fun b => if b then 1 else 0) pre (acceptKeyword word) (acceptKeyword word) :=
  atKeyword_bind fun b => advance_if rfl b

theorem identifier : Agree k (fun _ => 1) pre identifier identifier := by
  refine peek_bind fun kind _ => ?_
  split
  · exact first (advance (fun _ h => h) rfl) fun _ => pure rfl
  · exact fail

theorem propertyName : Agree k (fun _ => 1) pre propertyName propertyName := by
  refine peek_bind fun kind _ => ?_
  split
  · next word hword =>
    have hproper := Kind.isProper_of_word? hword
    exact first (advance (fun _ h => h) hproper) fun _ => pure rfl
  · exact identifier.weaken (Nat.le_refl _) (fun _ _ => trivial) fun _ => Nat.le_refl _

/-! ## Loops -/

/-- How many tokens a round takes at least: one, if the loop goes on. -/
def goesOn : σ ⊕ α → Nat := Sum.elim (fun _ => 1) fun _ => 0

/-- A loop of which each round but the last takes a token ends before the rounds that it may take. -/
theorem loop {round round' : σ → Parser (σ ⊕ α)} {again again' : Nat → σ → Parser α}
    (hagain : Repeats round again) (hagain' : Repeats round' again')
    (hround : ∀ s, Agree k goesOn (fun _ => True) (round s) (round' s)) (s : σ) {rounds rounds' : Nat}
    (h : k ≤ rounds) (h' : k ≤ rounds') : Agree k (fun _ => 0) pre (again rounds s) (again' rounds' s) := by
  induction rounds generalizing k rounds' s pre with
  | zero =>
    -- For no rounds at all the row would be empty, but the end of a text is in it.
    intro tokens _ _ he hlen _
    obtain rfl := List.eq_nil_of_length_eq_zero (Nat.le_zero.1 (Nat.le_trans hlen h))
    simp [Ended] at he
  | succ rounds ih =>
    cases rounds' with
    | zero =>
      intro tokens _ _ he hlen _
      obtain rfl := List.eq_nil_of_length_eq_zero (Nat.le_zero.1 (Nat.le_trans hlen h'))
      simp [Ended] at he
    | succ rounds' =>
      rw [hagain, hagain']
      have hfirst : Agree k goesOn pre (round s) (round' s) :=
        (hround s).weaken (Nat.le_refl _) (fun _ _ => trivial) fun _ => Nat.le_refl _
      refine bind_add (fun _ => 0) hfirst (fun next => ?_) fun _ _ => Nat.zero_le _
      cases next with
      | inl s =>
        -- What is left is shorter by a token, so that one round less is enough for it.
        have hk : k - goesOn (.inl s : σ ⊕ α) = k - 1 := rfl
        rw [hk]
        refine ih (fun s => ?_) s (by omega) (by omega)
        exact (hround s).weaken (Nat.sub_le ..) (fun _ => id) fun _ => Nat.le_refl _
      | inr result => exact pure rfl

/-! ## What follows for one row -/

/-- A value is made from as many tokens as it should be. -/
theorem takes (h : Agree k least (fun _ => True) p p') {tokens rest : List Token} {value : α} (he : Ended tokens)
    (hlen : tokens.length ≤ k) (hp : p tokens = .ok (value, rest)) : Takes (least value) tokens rest := by
  have hrun := h tokens tokens rfl he hlen trivial
  rw [hp] at hrun
  generalize p' tokens = x' at hrun
  cases hrun with
  | ok value ha => exact ha.takes

/-- A fault is found at a token of the row. -/
theorem located (h : Agree k least (fun _ => True) p p') {tokens : List Token} {fault : SyntaxFault}
    (he : Ended tokens) (hlen : tokens.length ≤ k) (hp : p tokens = .error fault) :
    ∃ token ∈ tokens, fault.offset = token.start := by
  have hrun := h tokens tokens rfl he hlen trivial
  rw [hp] at hrun
  generalize p' tokens = x' at hrun
  cases hrun with
  | error cause ha =>
    obtain ⟨own, heq, _⟩ := ha.takes
    obtain ⟨token, hm, _⟩ := ha.ended he
    obtain ⟨head, rest, rfl⟩ := List.exists_cons_of_ne_nil (List.ne_nil_of_mem hm)
    exact ⟨head, heq ▸ List.mem_append_right own List.mem_cons_self, rfl⟩

/-- How many rounds the loops may take makes no difference. -/
theorem run_eq (h : Agree k least (fun _ => True) p p') {tokens : List Token} (he : Ended tokens)
    (hlen : tokens.length ≤ k) : p tokens = p' tokens := by
  have hrun := h tokens tokens rfl he hlen trivial
  generalize p tokens = x at hrun
  generalize p' tokens = x' at hrun
  cases hrun with
  | ok value ha => rw [ha.rest_eq]
  | error cause ha => rw [ha.rest_eq]

end Agree

end ScriptModules.Script.Parser
