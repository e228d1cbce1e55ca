import ScriptModules.Proofs.Parsing.RoundTrip

/-!
# How high syntax trees grow

The limit on nesting bounds the height of a tree up to its chains: where the loops of the parser put one node above
another, as those for binary operators and for members and calls do, nothing is counted.  So the height of a program is
that of its longest chain and at most `heightBeyondChains` more (`height_le_of_parse`).
-/

namespace ScriptModules.Script

/-- The shape of a syntax tree.  Below a node stand what a loop of the parser started from (`links`), and what was read
as a part of its own (`parts`). -/
inductive Shape where
  | node (links parts : List Shape)

namespace Shape

mutual

/-- The weight of the heaviest way down, where a step to a link weighs `link`, and one to a part weighs `part`. -/
def weigh (link part : Nat) : Shape → Nat
  | node links parts => max (weighAll link part link links) (weighAll link part part parts)

def weighAll (link part step : Nat) : List Shape → Nat
  | [] => 0
  | shape :: shapes => max (step + shape.weigh link part) (weighAll link part step shapes)

end

/-- The number of steps from the root to the deepest leaf. -/
def height : Shape → Nat := weigh 1 1

/-- The largest number of links on a way down. -/
def chain : Shape → Nat := weigh 1 0

/-- The largest number of steps on a way down that are no links. -/
def depth : Shape → Nat := weigh 0 1

private theorem weighAll_le {link part step b : Nat} {shapes : List Shape} :
    weighAll link part step shapes ≤ b ↔ ∀ shape ∈ shapes, step + shape.weigh link part ≤ b := by
  induction shapes with
  | nil => simp [weighAll]
  | cons shape shapes ih => rw [weighAll, Nat.max_le, ih, List.forall_mem_cons]

private theorem weigh_le {link part b : Nat} {links parts : List Shape} :
    (node links parts).weigh link part ≤ b ↔
      (∀ shape ∈ links, link + shape.weigh link part ≤ b) ∧ ∀ shape ∈ parts, part + shape.weigh link part ≤ b := by
  rw [weigh, Nat.max_le, weighAll_le, weighAll_le]

private theorem depth_le {links parts : List Shape} {b : Nat} :
    (node links parts).depth ≤ b ↔ (∀ shape ∈ links, shape.depth ≤ b) ∧ ∀ shape ∈ parts, shape.depth + 1 ≤ b := by
  refine weigh_le.trans (and_congr ?_ ?_)
  · simp only [Nat.zero_add, depth]
  · simp only [Nat.add_comm 1, depth]

private theorem depth_le_of_parts {parts : List Shape} {b : Nat} (h : ∀ shape ∈ parts, shape.depth ≤ b) :
    (node [] parts).depth ≤ b + 1 :=
  depth_le.2 ⟨by simp, fun shape hm => Nat.succ_le_succ (h shape hm)⟩

private theorem sizeOf_lt {links parts : List Shape} {shape : Shape} (h : shape ∈ links ∨ shape ∈ parts) :
    sizeOf shape < sizeOf (node links parts) := by
  rw [node.sizeOf_spec]
  obtain h | h := h <;> have := List.sizeOf_lt_of_mem h <;> omega

private theorem chain_le_height (shape : Shape) : shape.chain ≤ shape.height := by
  obtain ⟨links, parts⟩ := shape
  obtain ⟨hlinks, hparts⟩ := weigh_le.1 (Nat.le_refl (node links parts).height)
  refine weigh_le.2 ⟨fun shape hm => ?_, fun shape hm => ?_⟩
  · exact Nat.le_trans (Nat.add_le_add_left (chain_le_height shape) 1) (hlinks shape hm)
  · exact Nat.le_trans (Nat.add_le_add (Nat.zero_le 1) (chain_le_height shape)) (hparts shape hm)
  termination_by sizeOf shape
  decreasing_by
    · exact sizeOf_lt (.inl hm)
    · exact sizeOf_lt (.inr hm)

private theorem height_le_chain_add_depth (shape : Shape) : shape.height ≤ shape.chain + shape.depth := by
  obtain ⟨links, parts⟩ := shape
  obtain ⟨hlinks, hparts⟩ := weigh_le.1 (Nat.le_refl (node links parts).chain)
  obtain ⟨hlinks', hparts'⟩ := weigh_le.1 (Nat.le_refl (node links parts).depth)
  refine weigh_le.2 ⟨fun shape hm => ?_, fun shape hm => ?_⟩
  · have hshape := height_le_chain_add_depth shape
    have hchain : 1 + shape.chain ≤ _ := hlinks shape hm
    have hdepth : 0 + shape.depth ≤ _ := hlinks' shape hm
    change 1 + shape.height ≤ _
    omega
  · have hshape := height_le_chain_add_depth shape
    have hchain : 0 + shape.chain ≤ _ := hparts shape hm
    have hdepth : 1 + shape.depth ≤ _ := hparts' shape hm
    change 1 + shape.height ≤ _
    omega
  termination_by sizeOf shape
  decreasing_by
    · exact sizeOf_lt (.inl hm)
    · exact sizeOf_lt (.inr hm)

end Shape

/-! ## The shapes of syntax trees -/

mutual

def Expression.shape : Expression → Shape
  | .number _ | .string _ | .boolean _ | .null | .identifier _ => .node [] []
  | .array items => .node [] (shapesOfItems items)
  | .object entries => .node [] (shapesOfEntries entries)
  | .function definition => .node [] definition.shapes
  | .member object _ => .node [object.shape] []
  | .index object key => .node [object.shape] [key.shape]
  | .call callee args => .node [callee.shape] (shapesOfItems args)
  | .construct callee args => .node [] (callee.shape :: shapesOfItems args)
  | .unary _ operand => .node [] [operand.shape]
  | .binary _ left right => .node [left.shape] [right.shape]
  | .logical _ left right => .node [left.shape] [right.shape]
  | .assign target value => .node [] [target.shape, value.shape]

def shapesOfItems : List Expression → List Shape
  | [] => []
  | item :: items => item.shape :: shapesOfItems items

def shapesOfEntries : List (String × Expression) → List Shape
  | [] => []
  | (_, value) :: entries => value.shape :: shapesOfEntries entries

def Statement.shape : Statement → Shape
  | .declare _ bindings => .node [] (shapesOfBindings bindings)
  | .expression value => .node [] [value.shape]
  | .block body => .node [] (shapesOfStatements body)
  | .branch test yes none => .node [] [test.shape, yes.shape]
  | .branch test yes (some no) => .node [] [test.shape, yes.shape, no.shape]
  | .throw_ value => .node [] [value.shape]
  | .function definition => .node [] definition.shapes
  | .return_ none => .node [] []
  | .return_ (some value) => .node [] [value.shape]
  | .try_ body handler none => .node [] (shapesOfStatements body ++ shapesOfHandler handler)
  | .try_ body handler (some last) =>
    .node [] (shapesOfStatements body ++ shapesOfHandler handler ++ shapesOfStatements last)
  | .empty => .node [] []

def shapesOfStatements : List Statement → List Shape
  | [] => []
  | statement :: statements => statement.shape :: shapesOfStatements statements

def shapesOfBindings : List (String × Option Expression) → List Shape
  | [] => []
  | (_, none) :: bindings => shapesOfBindings bindings
  | (_, some value) :: bindings => value.shape :: shapesOfBindings bindings

def shapesOfHandler : Option Handler → List Shape
  | none => []
  | some (.mk _ body) => shapesOfStatements body

def Function.shapes : Function → List Shape
  | .mk _ _ body => shapesOfStatements body

end

/-- The shape of a program, whose statements are its parts. -/
def programShape (program : List Statement) : Shape := .node [] (program.map Statement.shape)

private theorem shapesOfItems_eq (items : List Expression) : shapesOfItems items = items.map Expression.shape := by
  induction items with
  | nil => rfl
  | cons item items ih => rw [shapesOfItems, ih, List.map_cons]

private theorem shapesOfEntries_eq (entries : List (String × Expression)) :
    shapesOfEntries entries = entries.map fun entry => entry.2.shape := by
  induction entries with
  | nil => rfl
  | cons entry entries ih => rw [shapesOfEntries, ih, List.map_cons]

private theorem shapesOfStatements_eq (statements : List Statement) :
    shapesOfStatements statements = statements.map Statement.shape := by
  induction statements with
  | nil => rfl
  | cons statement statements ih => rw [shapesOfStatements, ih, List.map_cons]

private theorem shapesOfBindings_eq (bindings : List (String × Option Expression)) :
    shapesOfBindings bindings = (bindings.filterMap (·.2)).map Expression.shape := by
  induction bindings with
  | nil => rfl
  | cons binding bindings ih =>
    obtain ⟨name, _ | value⟩ := binding <;> simp [shapesOfBindings, ih]

/-! ## The bound -/

/-- No rule adds more than one step of depth for each precedence, so this bounds the depth of an expression that was
read at a precedence with `n` levels of nesting. -/
private def depthBound (n : Nat) (p : Precedence) : Nat := 10 * n - p.rank

private theorem le_depthBound (n : Nat) (p : Precedence) : 10 * n + 1 ≤ depthBound (n + 1) p := by
  cases p <;> simp only [depthBound, Precedence.rank] <;> omega

private theorem depthBound_tighter_le (n : Nat) (p : Precedence) : depthBound n p.tighter ≤ depthBound n p := by
  cases p <;> simp only [depthBound, Precedence.rank, Precedence.tighter] <;> omega

private theorem depthBound_tighter_lt {n : Nat} {p : Precedence} (h : p ≠ .primary) :
    depthBound (n + 1) p.tighter + 1 ≤ depthBound (n + 1) p := by
  cases p <;> first | contradiction | (simp only [depthBound, Precedence.rank, Precedence.tighter]; omega)

private theorem depth_of_parts {n : Nat} {p : Precedence} {parts : List Shape}
    (h : ∀ shape ∈ parts, shape.depth ≤ 10 * n) : (Shape.node [] parts).depth ≤ depthBound (n + 1) p :=
  Nat.le_trans (Shape.depth_le_of_parts h) (le_depthBound n p)

/-- A chain is as deep as what it starts from, and one step deeper than its parts. -/
private theorem depth_of_link {n : Nat} {p : Precedence} {link : Shape} {parts : List Shape}
    (hl : link.depth ≤ depthBound (n + 1) p) (h : ∀ shape ∈ parts, shape.depth + 1 ≤ depthBound (n + 1) p) :
    (Shape.node [link] parts).depth ≤ depthBound (n + 1) p :=
  Shape.depth_le.2 ⟨by simpa using hl, h⟩

private theorem depth_of_body {n : Nat} {body : List Statement} (h : ∀ s ∈ body, s.shape.depth ≤ 10 * n) :
    ∀ shape ∈ shapesOfStatements body, shape.depth ≤ 10 * n := by
  rw [shapesOfStatements_eq]
  exact List.forall_mem_map.2 h

private theorem depth_of_function {n : Nat} {f : Function}
    (h : f.Holds (fun _ => True) fun s => s.shape.depth ≤ 10 * n) : ∀ shape ∈ f.shapes, shape.depth ≤ 10 * n := by
  obtain ⟨name, parameters, body⟩ := f
  exact depth_of_body h.body

private theorem depth_of_items {n : Nat} {items : List Expression}
    (h : ∀ item ∈ items, item.shape.depth ≤ depthBound n .assignment) :
    ∀ shape ∈ shapesOfItems items, shape.depth ≤ 10 * n := by
  rw [shapesOfItems_eq]
  exact List.forall_mem_map.2 h

private theorem depth_of_statement {n : Nat} {parts : List Shape} (h : ∀ shape ∈ parts, shape.depth ≤ 10 * n) :
    (Shape.node [] parts).depth ≤ 10 * (n + 1) :=
  Nat.le_trans (Shape.depth_le_of_parts h) (by omega)

private theorem depth_of_try {n : Nat} {body : List Statement} {handler : Option Handler}
    {finalizer : Option (List Statement)} (hb : ∀ s ∈ body, s.shape.depth ≤ 10 * n)
    (hh : ∀ parameter caught, some (Handler.mk parameter caught) = handler → ∀ s ∈ caught, s.shape.depth ≤ 10 * n)
    (hf : ∀ last ∈ finalizer, ∀ s ∈ last, s.shape.depth ≤ 10 * n) :
    (Statement.try_ body handler finalizer).shape.depth ≤ 10 * (n + 1) := by
  have hcaught : ∀ shape ∈ shapesOfHandler handler, shape.depth ≤ 10 * n := by
    cases handler with
    | none => simp [shapesOfHandler]
    | some handler =>
      obtain ⟨parameter, caught⟩ := handler
      exact depth_of_body (hh parameter caught rfl)
  have hguarded := List.forall_mem_append.2 ⟨depth_of_body hb, hcaught⟩
  cases finalizer with
  | none => exact depth_of_statement hguarded
  | some last => exact depth_of_statement (List.forall_mem_append.2 ⟨hguarded, depth_of_body (hf last rfl)⟩)

private theorem grammar_depth : Grammar (fun _ => True) (fun n p e => e.shape.depth ≤ depthBound n p)
    (fun n s => s.shape.depth ≤ 10 * n) where
  number _ := Nat.zero_le _
  string _ := Nat.zero_le _
  boolean _ := Nat.zero_le _
  null := Nat.zero_le _
  identifier _ := Nat.zero_le _
  array h := depth_of_parts (depth_of_items h)
  object h := by
    refine depth_of_parts ?_
    rw [shapesOfEntries_eq]
    exact List.forall_mem_map.2 h
  function h := depth_of_parts (depth_of_function h)
  parenthesized h := Nat.le_trans (Nat.le_succ_of_le h) (le_depthBound _ .primary)
  member h _ := depth_of_link h (by simp)
  index h hk := depth_of_link h (by simpa using Nat.le_trans (Nat.succ_le_succ hk) (le_depthBound _ .access))
  call h ha := depth_of_link h fun shape hm =>
    Nat.le_trans (Nat.succ_le_succ (depth_of_items ha shape hm)) (le_depthBound _ .access)
  construct h ha := by
    refine Shape.depth_le.2 ⟨by simp, List.forall_mem_cons.2 ⟨?_, fun shape hm => ?_⟩⟩
    · exact Nat.le_trans (Nat.succ_le_succ h) (depthBound_tighter_lt (p := .access) (by decide))
    · exact Nat.le_trans (Nat.succ_le_succ (depth_of_items ha shape hm)) (le_depthBound _ .access)
  unary op h := depth_of_parts (by simpa using Nat.le_trans h (Nat.sub_le _ _))
  binary op hl hr := depth_of_link hl (by
    simpa using Nat.le_trans (Nat.succ_le_succ hr) (depthBound_tighter_lt (by cases op <;> decide)))
  logical op hl hr := depth_of_link hl (by
    simpa using Nat.le_trans (Nat.succ_le_succ hr) (depthBound_tighter_lt (by cases op <;> decide)))
  assign _ ht hv := by
    have htarget := Nat.le_trans (Nat.succ_le_succ ht) (depthBound_tighter_lt (p := .assignment) (by decide))
    have hvalue := Nat.le_trans (Nat.succ_le_succ hv) (le_depthBound _ .assignment)
    exact Shape.depth_le.2 ⟨by simp, by simpa using ⟨htarget, hvalue⟩⟩
  looser h := Nat.le_trans h (depthBound_tighter_le _ _)
  declare _ h := by
    refine depth_of_statement ?_
    rw [shapesOfBindings_eq, List.forall_mem_map]
    intro value hm
    obtain ⟨binding, hbinding, hvalue⟩ := List.mem_filterMap.1 hm
    exact (h binding hbinding).value value hvalue
  expression h := depth_of_statement (List.forall_mem_singleton.2 h)
  block h := depth_of_statement (depth_of_body h)
  conditional ht hy := depth_of_statement (by simpa using ⟨ht, hy⟩)
  alternative ht hy _ hn := depth_of_statement (by simpa using ⟨ht, hy, hn⟩)
  throw_ h := depth_of_statement (List.forall_mem_singleton.2 h)
  declaredFunction _ h := depth_of_statement (depth_of_function h)
  return_ {n value?} h := by
    cases value? with
    | none => exact depth_of_statement (by simp)
    | some value => exact depth_of_statement (List.forall_mem_singleton.2 (h value rfl))
  try_ hb hh hf _ := depth_of_try hb (fun parameter caught h => (hh parameter caught h).2) hf
  empty := Nat.zero_le _

/-- The height that a program may have beyond that of its longest chain. -/
def heightBeyondChains : Nat := 10 * nestingLimit + 1

/-- A program is as high as its longest chain, up to what the nesting limit allows. -/
theorem height_le_of_parse {source : String} {program : List Statement} (h : parse source = .ok program) :
    (programShape program).chain ≤ (programShape program).height ∧
      (programShape program).height ≤ (programShape program).chain + heightBeyondChains := by
  have hdepth : ∀ s ∈ program, s.shape.depth ≤ 10 * nestingLimit :=
    (grammar_depth.parse (fun _ _ _ => trivial) h).1
  have hprogram : (programShape program).depth ≤ heightBeyondChains :=
    Shape.depth_le_of_parts (List.forall_mem_map.2 hdepth)
  refine ⟨Shape.chain_le_height _, ?_⟩
  exact Nat.le_trans (Shape.height_le_chain_add_depth _) (Nat.add_le_add_left hprogram _)

/-- The argument of a call is a part, and the longest chain is a single link. -/
theorem height_le_of_call :
    ∃ program, parse "f(a.b)" = .ok program ∧ (programShape program).chain = 1 ∧ (programShape program).height = 4 ∧
      (programShape program).chain ≤ (programShape program).height ∧
      (programShape program).height ≤ (programShape program).chain + heightBeyondChains := by
  have hscan : scan "f(a.b)" = [⟨.identifier "f", 0⟩, ⟨.mark .leftParen, 1⟩, ⟨.identifier "a", 2⟩, ⟨.mark .dot, 3⟩,
      ⟨.identifier "b", 4⟩, ⟨.mark .rightParen, 5⟩, ⟨.eof, 6⟩] := by decide +kernel
  have hparse : parse "f(a.b)" = .ok [.expression (.call (.identifier "f") [.member (.identifier "a") "b"])] :=
    parse_of_scan hscan
  exact ⟨_, hparse, rfl, rfl, height_le_of_parse hparse⟩

/-! ## Chains of any length -/

/-- A member of a member of a member, and so on. -/
def memberChain : Nat → Expression
  | 0 => .identifier "a"
  | n + 1 => .member (memberChain n) "a"

open ScriptModules.Script.Parser

private theorem kinds_memberChain_succ (n : Nat) (first : Bool) :
    (memberChain (n + 1)).kinds first = (memberChain n).kinds first ++ [.mark .dot, .ofWord "a"] := by
  cases n <;> rfl

private theorem kinds_memberChain (n : Nat) (first : Bool) :
    ∃ rest, (memberChain n).kinds first = .identifier "a" :: rest ∧
      ∀ kind ∈ rest, kind = .mark .dot ∨ kind = .identifier "a" := by
  induction n with
  | zero => exact ⟨[], rfl, by simp⟩
  | succ n ih =>
    obtain ⟨rest, hrest, hkinds⟩ := ih
    refine ⟨rest ++ [.mark .dot, .ofWord "a"], by rw [kinds_memberChain_succ, hrest, List.cons_append], ?_⟩
    exact List.forall_mem_append.2 ⟨hkinds, by simp [show Kind.ofWord "a" = .identifier "a" by decide]⟩

/-- The loop for members reads a chain, and nothing of it is nested. -/
private theorem written_memberChain (inner : Nested) (n : Nat) (first : Bool) :
    Written False inner .access ((memberChain n).kinds first) (memberChain n) := by
  induction n with
  | zero =>
    have hname : Written False inner .primary [.identifier "a"] (.identifier "a") :=
      .of_primary ⟨rfl, fun _ => rfl, by simp⟩ (.peek (.advance .refl))
    exact hname.looser (by decide)
  | succ n ih =>
    rw [kinds_memberChain_succ]
    have henters := ih.enters .access (by decide) (Nat.le_refl _)
    refine ih.extend (by decide) (henters.step (fun fuel => ?_) (Kind.tightness_le _))
    exact .peek (.advance (.bind_last (Goes.propertyName "a")))

private theorem stands_memberChain (rounds levels n : Nat) :
    (Statement.expression (memberChain n)).Stands False (nested rounds (levels + 2)) := by
  obtain ⟨rest, hkinds, _⟩ := kinds_memberChain n true
  have hvalue := (written_memberChain (nested rounds levels) n true).assignment
  rw [hkinds, nested_rounds] at hvalue
  refine ⟨⟨_, _, by rw [Statement.kinds, hkinds, List.cons_append], rfl⟩, ?_⟩
  rw [Statement.kinds, hkinds]
  exact .peek (.bind hvalue Statement.ReadsBack.goes_end fun _ _ => Nat.zero_le _)

private theorem spells_memberChain (n : Nat) (kind : Kind)
    (hm : kind ∈ kindsOfStatements [.expression (memberChain n)]) :
    kind.isProper = true ∧ Spells kind.plainText.toList kind := by
  obtain ⟨rest, hkinds, hrest⟩ := kinds_memberChain n true
  have hname : Spells (Kind.identifier "a").plainText.toList (.identifier "a") := ⟨_, _, rfl, rfl⟩
  rw [kindsOfStatements, Statement.kinds, hkinds, kindsOfStatements, List.append_nil, List.cons_append] at hm
  obtain rfl | hm := List.mem_cons.1 hm
  · exact ⟨rfl, hname⟩
  obtain hm | hm := List.mem_append.1 hm
  · obtain rfl | rfl := hrest kind hm
    · exact ⟨rfl, spells_mark _⟩
    · exact ⟨rfl, hname⟩
  · obtain rfl := List.mem_singleton.1 hm
    exact ⟨rfl, spells_mark _⟩

private theorem parse_memberChain (n : Nat) :
    parse (render Kind.plainText [.expression (memberChain n)]) = .ok [.expression (memberChain n)] := by
  have hscan := map_kind_scan_intercalate (spells_memberChain n)
  have hstands (rounds : Nat) : ∀ s ∈ [Statement.expression (memberChain n)],
      s.Stands False (nested rounds nestingLimit) :=
    List.forall_mem_singleton.2 (stands_memberChain rounds (nestingLimit - 2) n)
  exact (parse_of_stands hstands hscan).resolve_right fun h => h.1

private theorem height_memberChain (n : Nat) : (programShape [.expression (memberChain n)]).height = n + 2 := by
  have hchain : (memberChain n).shape.height = n := by
    induction n with
    | zero => rfl
    | succ n ih =>
      have hstep : (memberChain (n + 1)).shape.height = max (max (1 + (memberChain n).shape.height) 0) 0 := rfl
      omega
  have hprogram : (programShape [.expression (memberChain n)]).height =
      max 0 (max (1 + max 0 (max (1 + (memberChain n).shape.height) 0)) 0) := rfl
  omega

/-- No height bounds those of all programs. -/
theorem not_height_le : ¬∃ bound, ∀ source program, parse source = .ok program →
    (programShape program).height ≤ bound := by
  rintro ⟨bound, h⟩
  have hchain := h _ _ (parse_memberChain bound)
  rw [height_memberChain] at hchain
  omega

end ScriptModules.Script
