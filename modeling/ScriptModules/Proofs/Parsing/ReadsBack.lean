import ScriptModules.Proofs.Parsing.Grammar
import ScriptModules.Proofs.Parsing.Tightness

/-!
# What is written for a program reads back

For every kind of expression and of statement: if what is written for its parts reads back, then so does what is written
for it (`Expression.ReadsBack`, `Statement.ReadsBack`).  With the rules of the grammar that is an induction
(`grammar_readsBack`).
-/

namespace ScriptModules.Script

open ScriptModules.Script.Parser

/-! ## What is nested -/

namespace Parser

variable {α : Type} {rounds n : Nat} {kinds : List Kind} {stop : Kind → Prop} {q : Precedence} {e : Expression}

private theorem goes_tooDeep {next : Parser α} : Goes True rounds (fail .tooDeep) kinds stop next :=
  fun _ _ _ _ _ => .inr ⟨trivial, _, rfl⟩

private theorem yields_expression (h : ∀ n, Written True (nested rounds n) q kinds e) :
    Yields True (nested rounds n).rounds (nested rounds n).expression kinds Precedence.assignment.EndsBefore e := by
  cases n with
  | zero => exact goes_tooDeep
  | succ n =>
    have hassign := (h n).assignment
    rwa [nested_rounds] at hassign ⊢

private theorem yields_operand (h : ∀ n, Written True (nested rounds n) .unary kinds e) :
    Yields True (nested rounds n).rounds (nested rounds n).operand kinds Precedence.unary.EndsBefore e := by
  cases n with
  | zero => exact goes_tooDeep
  | succ n =>
    have hunary := (h n).yields (p := .unary) (by decide) (Nat.le_refl _)
    rwa [nested_rounds] at hunary ⊢

/-- Tokens that the rule for primary expressions reads. -/
theorem Written.of_primary {deep : Prop} {inner : Nested} {kind : Kind} {rest : List Kind}
    (hhead : Precedence.primary.BeginsWith kind)
    (h : Yields deep inner.rounds (primary inner) (kind :: rest) anything e) :
    Written deep inner .primary (kind :: rest) e :=
  .of_enters (by decide) hhead (.of_goes (h.weaken fun _ _ => trivial))

private theorem Written.enclosed (h : ∀ n, Written True (nested rounds n) q kinds e) :
    Written True (nested rounds n) .primary (enclosed kinds) e := by
  refine .of_primary ⟨rfl, by simp [unaryOperator?], by simp⟩ (.peek (.advance ?_))
  exact .bind (yields_expression h) (.expect .refl) fun _ _ => Nat.zero_le _

private theorem Written.guarded {needed : Bool} {bare : List Kind} {p : Precedence}
    (h : ∀ n, Written True (nested rounds n) q kinds e)
    (hbare : needed = false → ∀ n, Written True (nested rounds n) p bare e) :
    Written True (nested rounds n) p (guarded needed kinds bare) e := by
  cases needed with
  | true => exact (Written.enclosed h).looser p.rank_le
  | false => exact hbare rfl n

end Parser

/-- Whatever is written for the expression reads back. -/
structure Expression.ReadsBack (e : Expression) : Prop where
  written : ∀ rounds n first, Written True (nested rounds n) e.precedence (e.kinds first) e
  /-- In front of a statement it does not look like a block or a function. -/
  first : ∃ kind rest, e.kinds true = kind :: rest ∧ kind ≠ .mark .leftBrace ∧ kind ≠ .keyword .function_
  callee : e.isPlainCallee = true → ∀ rounds n,
    Enters True (nested rounds n).rounds (primary (nested rounds n) >>= membersAfter (nested rounds n).rounds)
      (e.kinds false) anything fun fuel => membersAfter fuel e

/-- May a statement begin with a token of this kind? -/
def Kind.beginsStatement : Kind → Bool
  | .keyword .var_ | .keyword .let_ | .keyword .const_ => true
  | .keyword .if_ | .keyword .throw_ | .keyword .return_ | .keyword .try_ => true
  | .mark .semicolon => true
  | kind => kind.beginsExpression

/-- The statement is read to its end before a token of this kind. -/
structure Statement.EndsBefore (s : Statement) (kind : Kind) : Prop where
  not_catch : kind ≠ .keyword .catch_
  not_finally : kind ≠ .keyword .finally_
  not_else : s.isOpen = true → kind ≠ .keyword .else_

/-- The statement is read from its tokens where it stands. -/
structure Statement.Stands (deep : Prop) (inner : Nested) (s : Statement) : Prop where
  head : ∃ kind rest, s.kinds = kind :: rest ∧ kind.beginsStatement = true
  yields : Yields deep inner.rounds inner.statement s.kinds s.EndsBefore s

/-- What is written for the statement reads back. -/
structure Statement.ReadsBack (s : Statement) : Prop where
  head : ∃ kind rest, s.kinds = kind :: rest ∧ kind.beginsStatement = true
  yields : ∀ rounds n, Yields True (nested rounds n).rounds (statement (nested rounds n)) s.kinds s.EndsBefore s

/-! ## Bodies and functions -/

namespace Statement.ReadsBack

variable {rounds n : Nat} {s : Statement} {body : List Statement} {stop : Kind → Prop}

/-- A statement that reads back is read where any statement may stand, with as many levels as there are. -/
theorem stands (h : s.ReadsBack) : s.Stands True (nested rounds n) := by
  refine ⟨h.head, ?_⟩
  cases n with
  | zero => exact goes_tooDeep
  | succ n =>
    have hs := h.yields rounds n
    rwa [nested_rounds] at hs ⊢

/-- No statement goes on with a token that begins one, or with the end of a body. -/
theorem endsBefore {kind : Kind} (h : kind.beginsStatement = true ∨ kind = .mark .rightBrace ∨ kind = .eof) :
    s.EndsBefore kind := by
  obtain h | rfl | rfl := h
  · constructor
    all_goals
      intros
      rintro rfl
      contradiction
  · exact ⟨by simp, by simp, by simp⟩
  · exact ⟨by simp, by simp, by simp⟩

/-- A loop over statements, which ends before a token of the kind `last`. -/
private theorem yields_loop {deep : Prop} {inner : Nested} {loop : Nat → Parser (List Statement)}
    {after : Nat → Kind → Parser (List Statement)} {last : Kind} (hlast : last = .mark .rightBrace ∨ last = .eof)
    (hzero : loop 0 = pure []) (hsucc : ∀ fuel, loop (fuel + 1) = (peek >>= after fuel))
    (hend : ∀ fuel, after fuel last = pure [])
    (hnext : ∀ fuel kind, kind.beginsStatement = true → after fuel kind = (do
      let first ← inner.statement
      return first :: (← loop fuel)))
    {fuel : Nat} (hfuel : fuel ≤ inner.rounds) (h : ∀ s ∈ body, s.Stands deep inner) :
    Yields deep fuel (loop fuel) (kindsOfStatements body) (fun k => k = last) body := by
  induction body generalizing fuel with
  | nil =>
    cases fuel with
    | zero =>
      rw [hzero]
      exact .refl
    | succ fuel =>
      rw [hsucc]
      refine .peek_nil fun k hk => ?_
      rw [hk, hend]
  | cons s body ih =>
    obtain ⟨hs, hbody⟩ := List.forall_mem_cons.1 h
    obtain ⟨kind, rest, hkinds, hkind⟩ := hs.head
    rw [kindsOfStatements, hkinds]
    cases fuel with
    | zero => exact .zero
    | succ fuel =>
      have hyields := hs.yields.mono hfuel
      rw [hkinds] at hyields
      rw [hsucc]
      refine .peek ?_
      rw [hnext fuel kind hkind]
      refine .bind_less hyields (.bind_last (ih (Nat.le_of_succ_le hfuel) hbody)) ?_
      rintro k rfl
      cases body with
      | nil => exact endsBefore (.inr hlast)
      | cons next body =>
        obtain ⟨kind', rest', hkinds', hkind'⟩ := (hbody next List.mem_cons_self).head
        rw [kindsOfStatements, hkinds']
        exact endsBefore (.inl hkind')

private theorem statementsUntilClose {fuel : Nat} (hfuel : fuel ≤ (Parser.nested rounds n).rounds)
    (h : ∀ s ∈ body, s.ReadsBack) :
    Yields True fuel (statementsUntilClose (Parser.nested rounds n) fuel) (kindsOfStatements body)
      (fun k => k = .mark .rightBrace) body := by
  refine yields_loop (.inl rfl) rfl (fun _ => rfl) (fun _ => rfl) (fun fuel kind hkind => ?_) hfuel fun s hs =>
    (h s hs).stands
  split <;> first | contradiction | rfl

/-- The statements of a program are read up to the end. -/
theorem statements {deep : Prop} {inner : Nested} {fuel : Nat} (hfuel : fuel ≤ inner.rounds)
    (h : ∀ s ∈ body, s.Stands deep inner) :
    Yields deep fuel (statements inner fuel) (kindsOfStatements body) (fun k => k = .eof) body := by
  refine yields_loop (.inr rfl) rfl (fun _ => rfl) (fun _ => rfl) (fun fuel kind hkind => ?_) hfuel h
  split <;> first | contradiction | rfl

private theorem blockBody (h : ∀ s ∈ body, s.ReadsBack) : Yields True (Parser.nested rounds n).rounds
    (blockBody (Parser.nested rounds n)) (braced (kindsOfStatements body)) stop body :=
  .expect (.bind (statementsUntilClose (Nat.le_refl _) h) (.expect .refl) fun _ _ => rfl)

private theorem parameters {names : List String} : Yields True (Parser.nested rounds n).rounds
    (items (Parser.nested rounds n) .rightParen identifier)
    (separated (names.map fun name => [.identifier name]) ++ [.mark .rightParen]) stop names :=
  Goes.itemsUntil (by decide) (Nat.le_refl _) fun name _ => ⟨⟨_, _, rfl, by simp⟩, Goes.identifier⟩

private theorem function {f : Function} (h : ∀ s ∈ f.body, s.ReadsBack) : Yields True (Parser.nested rounds n).rounds
    (Parser.function (Parser.nested rounds n)) f.kinds stop f := by
  obtain ⟨name, names, body⟩ := f
  have rest (name : Option String) : Yields True (Parser.nested rounds n).rounds (do
      expect .leftParen
      let parameters ← items (Parser.nested rounds n) .rightParen identifier
      let body ← Parser.blockBody (Parser.nested rounds n)
      return Function.mk name parameters body)
      (enclosed (separated (names.map fun name => [.identifier name])) ++ braced (kindsOfStatements body)) stop
      (Function.mk name names body) :=
    .expect (.bind_any parameters (.bind_last (blockBody h)))
  cases name with
  | none =>
    refine .advance (.peek ?_)
    exact rest none
  | some name =>
    refine .advance (.peek (.advance ?_))
    exact rest (some name)

end Statement.ReadsBack

namespace Expression.ReadsBack

variable {rounds n : Nat} {e base : Expression}

private theorem guarded (h : e.ReadsBack) (p : Precedence) (first : Bool) :
    Written True (nested rounds n) p (guarded (e.isLooser p) (e.kinds false) (e.kinds first)) e := by
  refine .guarded (fun n => h.written rounds n false) fun hp n => (h.written rounds n first).looser ?_
  simpa [isLooser] using hp

private theorem expression (h : e.ReadsBack) (first : Bool) : Yields True (nested rounds n).rounds
    (nested rounds n).expression (e.kinds first) Precedence.assignment.EndsBefore e :=
  yields_expression fun n => h.written rounds n first

/-! ## Primary expressions -/

private theorem of_primary (hp : e.precedence = .primary) (h : ∀ rounds n first,
    Written True (nested rounds n) .primary (e.kinds first) e)
    (hfirst : ∃ kind rest, e.kinds true = kind :: rest ∧ kind ≠ .mark .leftBrace ∧ kind ≠ .keyword .function_) :
    e.ReadsBack := by
  refine ⟨fun rounds n first => hp ▸ h rounds n first, hfirst, fun _ rounds n => .of_goes ?_⟩
  have hprimary := (h rounds n false).yields (p := .primary) (by decide) (Nat.le_refl _)
  exact .bind_last (hprimary.weaken fun k _ => k.tightness_le)

/-- An expression with a single token. -/
theorem of_token {kind : Kind} (hp : e.precedence = .primary) (hkinds : ∀ first, e.kinds first = [kind])
    (hhead : Precedence.primary.BeginsWith kind) (hbrace : kind ≠ .mark .leftBrace)
    (hfunction : kind ≠ .keyword .function_)
    (h : ∀ inner, Yields True inner.rounds (primary inner) [kind] anything e) : e.ReadsBack := by
  refine of_primary hp (fun rounds n first => ?_) ⟨kind, [], hkinds true, hbrace, hfunction⟩
  rw [hkinds]
  exact .of_primary hhead (h _)

private theorem number {x : Float} : (Expression.number x).ReadsBack :=
  of_token rfl (fun _ => rfl) ⟨rfl, fun _ => rfl, by simp⟩ (by simp) (by simp) fun _ => .peek (.advance .refl)

private theorem string {s : String} : (Expression.string s).ReadsBack :=
  of_token rfl (fun _ => rfl) ⟨rfl, fun _ => rfl, by simp⟩ (by simp) (by simp) fun _ => .peek (.advance .refl)

private theorem identifier {name : String} : (Expression.identifier name).ReadsBack :=
  of_token rfl (fun _ => rfl) ⟨rfl, fun _ => rfl, by simp⟩ (by simp) (by simp) fun _ => .peek (.advance .refl)

private theorem null : Expression.null.ReadsBack :=
  of_token rfl (fun _ => rfl) ⟨rfl, fun _ => rfl, by simp⟩ (by simp) (by simp) fun _ => .peek (.advance .refl)

private theorem boolean (b : Bool) : (Expression.boolean b).ReadsBack := by
  cases b
  all_goals
    exact of_token rfl (fun _ => rfl) ⟨rfl, fun _ => rfl, by simp⟩ (by simp) (by simp) fun _ => .peek (.advance .refl)

/-- What is written for the items of a list. -/
theorem items {close : Mark} (hclose : (Kind.mark close).beginsExpression = false ∧ (Kind.mark close).tightness = 0)
    (hcomma : close ≠ .comma) {items : List Expression} (h : ∀ item ∈ items, item.ReadsBack) {stop : Kind → Prop} :
    Yields True (nested rounds n).rounds (Parser.items (nested rounds n) close (nested rounds n).expression)
      (separated (kindsOfItems items) ++ [.mark close]) stop items := by
  rw [kindsOfItems_eq]
  refine Goes.itemsUntil hcomma (Nat.le_refl _) fun item hm => ⟨?_, ((h item hm).expression false).weaken ?_⟩
  · obtain ⟨kind, rest, hkinds, hhead⟩ := ((h item hm).written rounds n false).head
    refine ⟨kind, rest, hkinds, ?_⟩
    rintro rfl
    rw [hhead.begins] at hclose
    exact absurd hclose.1 (by decide)
  · rintro k (rfl | rfl)
    · exact Nat.zero_le _
    · exact Nat.le_of_eq hclose.2

private theorem array {items : List Expression} (h : ∀ item ∈ items, item.ReadsBack) :
    (Expression.array items).ReadsBack := by
  refine of_primary rfl (fun rounds n first => ?_) ⟨_, _, rfl, by simp, by simp⟩
  refine .of_primary ⟨rfl, fun _ => rfl, by simp⟩ (.peek (.advance ?_))
  exact .bind_last (ReadsBack.items ⟨rfl, rfl⟩ (by decide) h)

private theorem entries {entries : List (String × Expression)} (h : ∀ entry ∈ entries, entry.2.ReadsBack)
    {stop : Kind → Prop} :
    Yields True (nested rounds n).rounds (Parser.items (nested rounds n) .rightBrace (entry (nested rounds n)))
      (separated (kindsOfEntries entries) ++ [.mark .rightBrace]) stop entries := by
  rw [kindsOfEntries_eq]
  refine Goes.itemsUntil (by decide) (Nat.le_refl _) fun item hm => ⟨⟨_, _, rfl, by simp⟩, ?_⟩
  have hkey : Yields True (nested rounds n).rounds entryKey [.string item.1] anything (item.1, false) :=
    .peek (.advance .refl)
  refine .bind_cons hkey (.atMark (.ite_false (by simp) (.expect (.bind_last ?_))))
  refine ((h item hm).expression false).weaken ?_
  rintro k (rfl | rfl) <;> exact Nat.zero_le _

private theorem object {entries : List (String × Expression)} (h : ∀ entry ∈ entries, entry.2.ReadsBack) :
    (Expression.object entries).ReadsBack := by
  have bare {rounds : Nat} (n : Nat) : Written True (nested rounds n) .primary
      (braced (separated (kindsOfEntries entries))) (.object entries) := by
    refine .of_primary ⟨rfl, fun _ => rfl, by simp⟩ (.peek (.advance ?_))
    exact .bind_last (ReadsBack.entries h)
  refine of_primary rfl (fun rounds n first => ?_) ⟨_, _, rfl, by simp, by simp⟩
  exact .guarded bare fun _ => bare

private theorem function {f : Function} (h : ∀ s ∈ f.body, s.ReadsBack) : (Expression.function f).ReadsBack := by
  obtain ⟨kinds, hkinds⟩ : ∃ kinds, f.kinds = .keyword .function_ :: kinds := by
    obtain ⟨_ | name, names, body⟩ := f
    · exact ⟨_, rfl⟩
    · exact ⟨_, rfl⟩
  have bare {rounds : Nat} (n : Nat) : Written True (nested rounds n) .primary f.kinds (.function f) := by
    have hf : Yields True (nested rounds n).rounds (Parser.function (nested rounds n)) f.kinds anything f :=
      Statement.ReadsBack.function h
    rw [hkinds] at hf ⊢
    exact .of_primary ⟨rfl, fun _ => rfl, by simp⟩ (.peek (.bind_last hf))
  refine of_primary rfl (fun rounds n first => ?_) ⟨_, _, rfl, by simp, by simp⟩
  exact .guarded bare fun _ => bare

/-! ## What is built on an expression to the left -/

private theorem first_guarded (hb : base.ReadsBack) (needed : Bool) (more : List Kind) :
    ∃ kind rest, Script.guarded needed (base.kinds false) (base.kinds true) ++ more = kind :: rest ∧
      kind ≠ .mark .leftBrace ∧ kind ≠ .keyword .function_ := by
  cases needed with
  | true => exact ⟨_, _, rfl, by simp, by simp⟩
  | false =>
    obtain ⟨kind, rest, hfirst, hne⟩ := hb.first
    refine ⟨kind, rest ++ more, ?_, hne⟩
    simp only [Script.guarded, Bool.false_eq_true, if_false, hfirst, List.cons_append]

/-- The loop of the rule for a precedence makes the expression of the one that is written in front of it. -/
theorem of_left {q : Precedence} {kind : Kind} {more : List Kind} (hp : e.precedence = q) (hq : q ≠ .assignment)
    (hb : base.ReadsBack) (hkind : q.tighter.EndsBefore kind)
    (hkinds : ∀ first, e.kinds first =
      Script.guarded (base.isLooser q) (base.kinds false) (base.kinds first) ++ kind :: more)
    (hloop : ∀ rounds n fuel, Goes True (nested rounds n).rounds (loopAt (nested rounds n) q (fuel + 1) base)
      (kind :: more) q.tighter.EndsBefore (loopAt (nested rounds n) q fuel e))
    (hcallee : e.isPlainCallee = true → ∀ rounds n,
      Enters True (nested rounds n).rounds (primary (nested rounds n) >>= membersAfter (nested rounds n).rounds)
        (e.kinds false) anything fun fuel => membersAfter fuel e) : e.ReadsBack := by
  subst hp
  refine ⟨fun rounds n first => ?_, ?_, hcallee⟩
  · rw [hkinds]
    have hguarded : Written True (nested rounds n) e.precedence _ base := hb.guarded e.precedence first
    exact hguarded.extend hq ((hguarded.enters _ hq (Nat.le_refl _)).step (hloop rounds n) hkind)
  · rw [hkinds]
    exact hb.first_guarded _ _

private theorem access_le_of_isPlainCallee {e : Expression} (h : e.isPlainCallee = true) :
    Precedence.access.rank ≤ e.precedence.rank := by
  cases e with
  | binary op => cases op <;> contradiction
  | logical op => cases op <;> contradiction
  | assign | unary => contradiction
  | _ => exact Nat.le_of_ble_eq_true rfl

private theorem member (hb : base.ReadsBack) {name : String} : (Expression.member base name).ReadsBack := by
  refine of_left (q := .access) rfl (by decide) hb (Kind.tightness_le _) (fun _ => rfl) (fun rounds n fuel => ?_)
    fun hplain rounds n => ?_
  · exact .peek (.advance (.bind_last (Goes.propertyName name)))
  · have hbare : base.isLooser .access = false := by
      simpa [isLooser] using access_le_of_isPlainCallee (e := base) hplain
    simp only [kinds, hbare, Script.guarded, Bool.false_eq_true, if_false]
    exact (hb.callee hplain rounds n).step
      (fun fuel => .accept (.ite_true rfl (.bind_last (Goes.propertyName name)))) trivial

private theorem index (hb : base.ReadsBack) {key : Expression} (hk : key.ReadsBack) :
    (Expression.index base key).ReadsBack := by
  refine of_left (q := .access) rfl (by decide) hb (Kind.tightness_le _) (fun _ => rfl) (fun rounds n fuel => ?_)
    (by simp [isPlainCallee, precedence])
  exact .peek (.advance (.bind (hk.expression false) (.expect .refl) fun _ _ => Nat.zero_le _))

private theorem arguments {args : List Expression} (h : ∀ a ∈ args, a.ReadsBack) {stop : Kind → Prop} :
    Yields True (nested rounds n).rounds (arguments (nested rounds n)) (enclosed (separated (kindsOfItems args))) stop
      args :=
  .expect (ReadsBack.items ⟨rfl, rfl⟩ (by decide) h)

private theorem call (hb : base.ReadsBack) {args : List Expression} (h : ∀ a ∈ args, a.ReadsBack) :
    (Expression.call base args).ReadsBack := by
  refine of_left (q := .access) rfl (by decide) hb (Kind.tightness_le _) (fun _ => rfl) (fun rounds n fuel => ?_)
    (by simp [isPlainCallee, precedence])
  exact .peek (.bind_last (ReadsBack.arguments h))

/-- A binary operator of some precedence, of which the right operand is one tighter. -/
theorem of_operator {p : Precedence} {mark : Mark} {build : Expression → Expression → Expression} {right : Expression}
    (hp : (build base right).precedence = p) (hchain : p.isChain = true)
    (hop : operator? p (.mark mark) = some build) (htight : (Kind.mark mark).tightness = p.rank + 1)
    (hl : base.ReadsBack) (hr : right.ReadsBack)
    (hkinds : ∀ first, (build base right).kinds first =
      Script.guarded (base.isLooser p) (base.kinds false) (base.kinds first) ++
        .mark mark :: Script.guarded (right.isLooser p.tighter) (right.kinds false) (right.kinds false)) :
    (build base right).ReadsBack := by
  obtain ⟨hassign, hlt⟩ := Precedence.of_isChain hchain
  have hrank : p.tighter.rank = p.rank + 1 := by
    refine Precedence.rank_tighter ?_
    rintro rfl
    contradiction
  refine of_left hp hassign hl (Nat.le_of_eq (by rw [htight, hrank])) hkinds (fun rounds n fuel => ?_) fun hplain => ?_
  · rw [loopAt_of_isChain _ hchain]
    refine .peek ?_
    rw [hop]
    refine .advance (.bind_last ((hr.guarded p.tighter false).yields ?_ (Nat.le_refl _)))
    intro htighter
    rw [htighter] at hrank
    contradiction
  · have hle := access_le_of_isPlainCallee hplain
    rw [hp] at hle
    omega

private theorem binary (op : BinaryOperator) {right : Expression} (hl : base.ReadsBack) (hr : right.ReadsBack) :
    (Expression.binary op base right).ReadsBack :=
  of_operator rfl op.isChain_precedence (operator?_binary op) op.tightness_mark hl hr fun _ => rfl

private theorem logical (op : LogicalOperator) {right : Expression} (hl : base.ReadsBack) (hr : right.ReadsBack) :
    (Expression.logical op base right).ReadsBack :=
  of_operator rfl op.isChain_precedence (operator?_logical op) op.tightness_mark hl hr fun _ => rfl

/-! ## The other expressions -/

private theorem goes_membersAfter (fuel : Nat) (e : Expression) :
    Goes True rounds (membersAfter fuel e) [] (fun k => k ≠ .mark .dot) (pure e) := by
  cases fuel with
  | zero => exact .refl
  | succ fuel => exact .not_accept (fun _ hk => hk) (.ite_false (by simp) .refl)

private theorem callee_yields (h : base.ReadsBack) :
    Yields True (nested rounds n).rounds (primary (nested rounds n) >>= membersAfter (nested rounds n).rounds)
      (Script.guarded (!base.isPlainCallee) (base.kinds false) (base.kinds false)) (fun k => k ≠ .mark .dot) base := by
  cases hplain : base.isPlainCallee with
  | true => exact (h.callee hplain rounds n).close (fun _ _ => trivial) fun fuel => goes_membersAfter fuel base
  | false =>
    have hwritten : Written True (nested rounds n) .primary (enclosed (base.kinds false)) base :=
      .enclosed fun n => h.written rounds n false
    have henclosed := hwritten.yields (p := .primary) (by decide) (Nat.le_refl _)
    exact .bind_nil henclosed (goes_membersAfter _ base) fun k _ => k.tightness_le

private theorem construct (h : base.ReadsBack) {args : List Expression} (ha : ∀ a ∈ args, a.ReadsBack) :
    (Expression.construct base args).ReadsBack := by
  refine ⟨fun rounds n first => ?_, ⟨_, _, rfl, by simp, by simp⟩, by simp [isPlainCallee, precedence]⟩
  refine .of_enters (q := .access) (by decide) ⟨rfl, fun _ => rfl, by simp⟩ (.of_goes ?_)
  have hconstruction : Yields True (nested rounds n).rounds (construction (nested rounds n))
      ((Expression.construct base args).kinds first) Precedence.primary.EndsBefore (.construct base args) := by
    refine .advance (.assoc (.bind h.callee_yields ?_ fun _ _ => by simp [enclosed]))
    exact .atMark (.ite_true rfl (.bind_last (ReadsBack.arguments ha)))
  exact .atKeyword (.ite_true rfl (.bind_last hconstruction))

private theorem unary (op : UnaryOperator) (h : base.ReadsBack) : (Expression.unary op base).ReadsBack := by
  have hop : unaryOperator? op.kind = some op := by cases op <;> rfl
  refine ⟨fun rounds n first => ?_, ⟨_, _, rfl, by cases op <;> simp [UnaryOperator.kind],
    by cases op <;> simp [UnaryOperator.kind]⟩, by simp [isPlainCallee, precedence]⟩
  refine .of_enters (q := .unary) (by decide) ⟨by cases op <;> rfl, by simp [Precedence.rank], by simp⟩ (.of_goes ?_)
  refine .peek ?_
  rw [hop]
  refine .advance (.bind_last ((yields_operand fun n => h.guarded .unary false).weaken fun k hk => ?_))
  exact Precedence.endsBefore_unary hk

private theorem assign {value : Expression} (htarget : base.isTarget = true) (ht : base.ReadsBack)
    (hv : value.ReadsBack) :
    (Expression.assign base value).ReadsBack := by
  refine ⟨fun rounds n first => ?_, ?_, by simp [isPlainCallee, precedence]⟩
  · have hguarded : Written True (nested rounds n) .disjunction _ base := ht.guarded .disjunction first
    have hassign : Yields True (nested rounds n).rounds (assignment (nested rounds n))
        ((Expression.assign base value).kinds first) Precedence.assignment.EndsBefore (.assign base value) := by
      refine .get fun _ => .bind (hguarded.yields (by decide) (Nat.le_refl _)) ?_ fun _ _ => Nat.le_refl 1
      exact .atMark (.ite_true rfl (.ite_true htarget (.advance (.bind_last (hv.expression false)))))
    obtain ⟨kind, rest, hkinds, hhead⟩ := hguarded.head
    rw [kinds, hkinds] at hassign ⊢
    exact .of_assignment hhead.begins hassign
  · exact ht.first_guarded _ _

end Expression.ReadsBack

/-! ## Statements -/

namespace Statement.ReadsBack

variable {rounds n : Nat} {e : Expression} {s yes no : Statement} {body : List Statement} {stop : Kind → Prop}

/-- The semicolon behind a statement ends it. -/
theorem goes_end {deep : Prop} {next : Statement} :
    Goes deep rounds (endOfStatement >>= fun _ => pure next) [.mark .semicolon] stop (pure next) := by
  have hend : Yields deep rounds endOfStatement [.mark .semicolon] anything () := .accept .refl
  exact .bind_cons hend .refl

/-- A statement that an expression and a semicolon end. -/
private theorem goes_value {next : Statement} (h : e.ReadsBack) (first : Bool) {f : Expression → Statement}
    (hf : f e = next) : Goes True (Parser.nested rounds n).rounds (do
      let value ← (Parser.nested rounds n).expression
      endOfStatement
      return f value) (e.kinds first ++ [.mark .semicolon]) stop (pure next) := by
  subst hf
  exact .bind (h.expression first) goes_end fun _ _ => Nat.zero_le _

private theorem throw_ (h : e.ReadsBack) : (Statement.throw_ e).ReadsBack :=
  ⟨⟨_, _, rfl, rfl⟩, fun _ _ => .peek (.advance (goes_value h false rfl))⟩

private theorem empty : Statement.empty.ReadsBack :=
  ⟨⟨_, _, rfl, rfl⟩, fun _ _ => .peek (.advance .refl)⟩

private theorem block (h : ∀ s ∈ body, s.ReadsBack) : (Statement.block body).ReadsBack :=
  ⟨⟨_, _, rfl, rfl⟩, fun _ _ => .peek (.bind_last (blockBody h))⟩

private theorem expression (h : e.ReadsBack) : (Statement.expression e).ReadsBack := by
  obtain ⟨kind, rest, hkinds, hbrace, hfunction⟩ := h.first
  have hbegins : kind.beginsExpression = true := by
    obtain ⟨kind', rest', hkinds', hhead⟩ := (h.written 0 0 true).head
    obtain ⟨rfl, rfl⟩ := List.cons.inj (hkinds.symm.trans hkinds')
    exact hhead.begins
  refine ⟨⟨kind, rest ++ [.mark .semicolon], by rw [kinds, hkinds, List.cons_append], ?_⟩, fun rounds n => ?_⟩
  · unfold Kind.beginsStatement
    split <;> first | rfl | exact hbegins
  · have hvalue : Goes True (Parser.nested rounds n).rounds (expressionStatement (Parser.nested rounds n))
        (e.kinds true ++ [.mark .semicolon]) (Statement.expression e).EndsBefore (pure (.expression e)) :=
      goes_value h true rfl
    rw [kinds, hkinds, List.cons_append] at *
    refine .peek ?_
    split <;> first | contradiction | exact hvalue

private theorem conditional (ht : e.ReadsBack) (hy : yes.ReadsBack) : (Statement.branch e yes none).ReadsBack := by
  refine ⟨⟨_, _, rfl, rfl⟩, fun rounds n => .peek ?_⟩
  rw [enclosed_append]
  refine .advance (.expect (.bind (ht.expression false) (.expect ?_) fun _ _ => Nat.zero_le _))
  refine .bind_nil hy.stands.yields ?_ fun k hk => ⟨hk.not_catch, hk.not_finally, fun _ => hk.not_else rfl⟩
  exact .not_acceptKeyword (fun _ hk => hk.not_else rfl) (.ite_false (by simp) .refl)

private theorem alternative (ht : e.ReadsBack) (hy : yes.ReadsBack) (hclosed : yes.isOpen = false) (hn : no.ReadsBack) :
    (Statement.branch e yes (some no)).ReadsBack := by
  refine ⟨⟨_, _, rfl, rfl⟩, fun rounds n => .peek ?_⟩
  rw [enclosed_append]
  refine .advance (.expect (.bind (ht.expression false) (.expect ?_) fun _ _ => Nat.zero_le _))
  refine .bind hy.stands.yields (.acceptKeyword (.ite_true rfl (.bind_last ?_))) fun _ _ => ?_
  · refine hn.stands.yields.weaken fun k hk => ?_
    exact ⟨hk.not_catch, hk.not_finally, hk.not_else⟩
  · exact ⟨by simp, by simp, by simp [hclosed]⟩

private theorem declaredFunction {f : Function} (hname : f.name.isSome = true) (h : ∀ s ∈ f.body, s.ReadsBack) :
    (Statement.function f).ReadsBack := by
  have hf {rounds n : Nat} : Yields True (Parser.nested rounds n).rounds
      (functionDeclaration (Parser.nested rounds n)) f.kinds (Statement.function f).EndsBefore (.function f) := by
    refine .bind_nil (function h) (.ite_false ?_ .refl) fun _ hk => hk
    simpa [Option.isSome_iff_ne_none] using hname
  obtain ⟨_ | name, names, body⟩ := f
  · contradiction
  · exact ⟨⟨_, _, rfl, rfl⟩, fun rounds n => .peek hf⟩

private theorem return_ {value? : Option Expression} (h : ∀ value ∈ value?, value.ReadsBack) :
    (Statement.return_ value?).ReadsBack := by
  cases value? with
  | none => exact ⟨⟨_, _, rfl, rfl⟩, fun rounds n => .peek (.advance (.peek goes_end))⟩
  | some value =>
    have hvalue := h value rfl
    refine ⟨⟨_, _, rfl, rfl⟩, fun rounds n => .peek (.advance ?_)⟩
    have hreturn : Goes True (Parser.nested rounds n).rounds (do
        let value? ← some <$> (Parser.nested rounds n).expression
        endOfStatement
        return Statement.return_ value?) (value.kinds false ++ [.mark .semicolon])
        (Statement.return_ (some value)).EndsBefore (pure (.return_ (some value))) :=
      .bind (Goes.map (hvalue.expression false)) goes_end fun _ _ => Nat.zero_le _
    obtain ⟨kind, rest, hkinds, hhead⟩ := (hvalue.written rounds n false).head
    have hbegins := hhead.begins
    rw [hkinds, List.cons_append] at hreturn ⊢
    refine .peek ?_
    split <;> first | contradiction | exact hreturn

private theorem handler? {handler : Option Handler}
    (h : ∀ parameter caught, some (Handler.mk parameter caught) = handler → ∀ s ∈ caught, s.ReadsBack) :
    Yields True (Parser.nested rounds n).rounds (handler? (Parser.nested rounds n)) (kindsOfHandler handler)
      (fun k => k ≠ .keyword .catch_) handler := by
  obtain _ | ⟨⟨_ | parameter, caught⟩⟩ := handler
  · exact .not_acceptKeyword (fun _ hk => hk) (.ite_false (by simp) .refl)
  · refine .acceptKeyword (.ite_true rfl (.not_accept (fun _ _ => by simp [braced]) (.ite_false (by simp) ?_)))
    exact .pure_bind (.bind_last (blockBody (h none caught rfl)))
  · rw [kindsOfHandler, enclosed_append]
    refine .acceptKeyword (.ite_true rfl (.accept (.ite_true rfl (.bind_cons Goes.identifier (.expect ?_)))))
    exact .pure_bind (.bind_last (blockBody (h (some parameter) caught rfl)))

private theorem finalizer? {last : List Statement} (h : ∀ s ∈ last, s.ReadsBack) :
    Yields True (Parser.nested rounds n).rounds (finalizer? (Parser.nested rounds n))
      (.keyword .finally_ :: braced (kindsOfStatements last)) stop (some last) :=
  .acceptKeyword (.ite_true rfl (.bind_last (blockBody h)))

private theorem no_finalizer :
    Yields True (Parser.nested rounds n).rounds (Parser.finalizer? (Parser.nested rounds n)) []
    (fun k => k ≠ .keyword .finally_) none :=
  .not_acceptKeyword (fun _ hk => hk) (.ite_false (by simp) .refl)

private theorem try_ {handler : Option Handler} {finalizer : Option (List Statement)} (hb : ∀ s ∈ body, s.ReadsBack)
    (hh : ∀ parameter caught, some (Handler.mk parameter caught) = handler → ∀ s ∈ caught, s.ReadsBack)
    (hf : ∀ last ∈ finalizer, ∀ s ∈ last, s.ReadsBack) (hsome : handler.isSome = true ∨ finalizer.isSome = true) :
    (Statement.try_ body handler finalizer).ReadsBack := by
  have hparts : ¬(handler.isNone && finalizer.isNone) = true := by
    cases handler <;> cases finalizer <;> simp_all
  cases finalizer with
  | none =>
    refine ⟨⟨_, _, rfl, rfl⟩, fun rounds n => .peek (.advance (.bind_any (blockBody hb) ?_))⟩
    refine .bind_nil (handler? hh) (.bind_nil no_finalizer (.ite_false hparts .refl) ?_) ?_
    · exact fun k hk => hk.not_finally
    · exact fun k hk => hk.not_catch
  | some last =>
    refine ⟨⟨_, _, rfl, rfl⟩, fun rounds n => .peek (.advance (.bind_any (blockBody hb) ?_))⟩
    refine .bind (handler? hh) (.bind_nil (finalizer? (hf last rfl)) ?_ fun _ hk => hk) fun _ _ => by simp
    exact .ite_false hparts .refl

/-- What is written behind a binding, before the others. -/
private def kindsBehind : List (String × Option Expression) → List Kind
  | [] => []
  | bound => .mark .comma :: separated (kindsOfBindings bound)

private theorem separated_kindsOfBindings (name : String) (value? : Option Expression)
    (bound : List (String × Option Expression)) : separated (kindsOfBindings ((name, value?) :: bound)) =
      .identifier name :: ((value?.elim [] fun value => .mark .equal :: value.kinds false) ++ kindsBehind bound) := by
  obtain _ | ⟨⟨_, _ | _⟩, _⟩ := bound <;> cases value? <;> simp [kindsOfBindings, separated, kindsBehind]

private theorem headD_kindsBehind {k : Kind} (bound : List (String × Option Expression)) (hk : k = .mark .semicolon) :
    (kindsBehind bound).headD k = .mark .comma ∨ (kindsBehind bound).headD k = .mark .semicolon := by
  cases bound with
  | nil => exact .inr hk
  | cons => exact .inl rfl

private theorem bindings {kind : DeclarationKind} {bound : List (String × Option Expression)} (hbound : bound ≠ [])
    {fuel : Nat} (hfuel : fuel ≤ (Parser.nested rounds n).rounds)
    (h : ∀ b ∈ bound, Binds (fun _ => True) Expression.ReadsBack kind b) :
    Yields True fuel (bindings (Parser.nested rounds n) kind fuel) (separated (kindsOfBindings bound))
      (fun k => k = .mark .semicolon) bound := by
  induction bound generalizing fuel with
  | nil => contradiction
  | cons b bound ih =>
    obtain ⟨hb, hrest⟩ := List.forall_mem_cons.1 h
    obtain ⟨name, value?⟩ := b
    rw [separated_kindsOfBindings]
    cases fuel with
    | zero => exact .zero
    | succ fuel =>
      have behind : Goes True fuel (do
          if ← accept .comma then return (name, value?) :: (← Parser.bindings (Parser.nested rounds n) kind fuel)
          else return [(name, value?)]) (kindsBehind bound) (fun k => k = .mark .semicolon)
          (pure ((name, value?) :: bound)) := by
        cases bound with
        | nil => exact .not_accept (by rintro k rfl; simp [kindsBehind]) (.ite_false (by simp) .refl)
        | cons next bound =>
          exact .accept (.ite_true rfl (.bind_last (ih (by simp) (Nat.le_of_succ_le hfuel) hrest)))
      refine .bind_cons_less Goes.identifier ?_
      cases value? with
      | none =>
        have hconst : kind ≠ .const_ := fun hk => by simpa using hb.initialized hk
        refine .not_accept (fun k hk => ?_) (.ite_false (by simp) (.ite_false hconst (.pure_bind behind)))
        obtain hnext | hnext := headD_kindsBehind bound hk
        all_goals
          rw [Option.elim_none, List.nil_append, hnext]
          simp
      | some value =>
        have hvalue := ((hb.value value rfl).expression false).mono (Nat.le_of_succ_le hfuel)
        refine .accept (.ite_true rfl (.bind (Goes.map hvalue) behind fun k hk => ?_))
        obtain hnext | hnext := headD_kindsBehind bound hk
        all_goals
          rw [hnext]
          exact Nat.zero_le _

private theorem declare {kind : DeclarationKind} {bound : List (String × Option Expression)} (hbound : bound ≠ [])
    (h : ∀ b ∈ bound, Binds (fun _ => True) Expression.ReadsBack kind b) :
    (Statement.declare kind bound).ReadsBack := by
  have hdeclare {rounds n : Nat} : Yields True (Parser.nested rounds n).rounds
      (declaration (Parser.nested rounds n) kind) ((Statement.declare kind bound).kinds)
      (Statement.declare kind bound).EndsBefore (.declare kind bound) :=
    .advance (.bind (bindings hbound (Nat.le_refl _) h) goes_end fun _ _ => rfl)
  cases kind with
  | var_ => exact ⟨⟨_, _, rfl, rfl⟩, fun _ _ => .peek hdeclare⟩
  | let_ => exact ⟨⟨_, _, rfl, rfl⟩, fun _ _ => .peek hdeclare⟩
  | const_ => exact ⟨⟨_, _, rfl, rfl⟩, fun _ _ => .peek hdeclare⟩

end Statement.ReadsBack

/-- All that the grammar builds reads back. -/
theorem grammar_readsBack :
    Grammar (fun _ => True) (fun _ _ e => e.ReadsBack) (fun _ s => s.ReadsBack) where
  number _ := .number
  string _ := .string
  boolean b := .boolean b
  null := .null
  identifier _ := .identifier
  array := .array
  object := .object
  function h := .function h.body
  parenthesized h := h
  member h _ := h.member
  index h hk := h.index hk
  call h ha := h.call ha
  construct h ha := h.construct ha
  unary op h := h.unary op
  binary op hl hr := .binary op hl hr
  logical op hl hr := .logical op hl hr
  assign htarget ht hv := .assign htarget ht hv
  looser h := h
  declare hbound h := .declare hbound h
  expression h := .expression h
  block := .block
  conditional := .conditional
  alternative := .alternative
  throw_ := .throw_
  declaredFunction hname h := .declaredFunction hname h.body
  return_ := .return_
  try_ hb hh hf hsome := .try_ hb (fun parameter caught h => (hh parameter caught h).2) hf hsome
  empty := .empty

end ScriptModules.Script
