import Mathlib.Data.List.Nodup
import MaterialViewer.Proofs.Graph.Order
import MaterialViewer.Shader.Generate

/-!
# Proofs: what the main function of a shader declares

The main function of the pixel stage holds the statements of the nodes in the order of the graph and
then those that write the color. A statement of a node refers to the outputs of the nodes that the
node uses, which come before it. Whether such an output is declared depends on its node alone: a
node without code declares its output if its type has a default in shaders, and a node with code of
the document if shaders know its type.
-/

namespace MaterialViewer

/-- The statements of a node declare its output. -/
def ShaderNode.DeclaresOutput (n : ShaderNode) : Prop :=
  match n.code? with
  | none => (Glsl.typeName? n.type).isSome ∧ (Glsl.defaultLiteral? n.type).isSome
  | some (.geometry _) => True
  | some (.source ..) => (Glsl.typeName? n.type).isSome

/-- The statements that compute the output of the node at an index. -/
def ShaderGraph.ownStatements (g : ShaderGraph) (index : Nat) : List Statement :=
  match g.nodes[index]? with
  | some node => (g.statementsOf node).toOption.getD []
  | none => []

/-- Every output that a statement uses is declared by an earlier one. -/
def DeclaredBeforeUse (body : List Statement) : Prop :=
  ∀ before s after, body = before ++ s :: after → ∀ v ∈ s.outputs,
    ∃ t ∈ before, t.declared? = some v

/-- The variables that some statements declare. -/
def declaredBy (statements : List Statement) : List String :=
  statements.filterMap Statement.declared?

variable {g : ShaderGraph} {n : ShaderNode} {statements : List Statement}

/-! ## The statements of one node -/

theorem mem_declaredBy {v : String} :
    v ∈ declaredBy statements ↔ ∃ t ∈ statements, t.declared? = some v :=
  List.mem_filterMap

theorem geometryRead_declared (reader : GeometryReader) (n : ShaderNode) :
    (reader.needs n).read.declared? = some n.outputVariable ∧
      (reader.needs n).read.outputs = [] := by
  cases reader with
  | texcoord => exact ⟨rfl, rfl⟩
  | surface property => cases property <;> exact ⟨rfl, rfl⟩

/-- What the statements of a node can be. -/
inductive StatementsFor (g : ShaderGraph) (n : ShaderNode) : List Statement → Prop
  | default (hcode : n.code? = none) : StatementsFor g n [n.defaultStatement]
  | read {reader : GeometryReader} (hcode : n.code? = some (.geometry reader)) :
      StatementsFor g n [(reader.needs n).read]
  | untyped {name : String} {file? function? code? : Option String}
      (hcode : n.code? = some (.source name file? function? code?))
      (htype : Glsl.typeName? n.type = none) :
      StatementsFor g n [.comment (n.name ++ ": no output")]
  | inline {name code type : String} {file? function? : Option String} {e : Expression}
      (hcode : n.code? = some (.source name file? function? (some code)))
      (htype : Glsl.typeName? n.type = some type)
      (hexpand : Template.expand (fun input => (n.input? input).map g.inputExpression)
        code.toList = .ok e) :
      StatementsFor g n [.declare type n.outputVariable (some e)]
  | call {name function type : String} {file? : Option String}
      (hcode : n.code? = some (.source name file? (some function) none))
      (htype : Glsl.typeName? n.type = some type) :
      StatementsFor g n
        [.declare type n.outputVariable ((Glsl.defaultLiteral? n.type).map .ofText),
          .call function (g.argumentsOf n ++ [.ofText n.outputVariable])]

theorem statementsOf_cases (h : g.statementsOf n = .ok statements) :
    StatementsFor g n statements := by
  unfold ShaderGraph.statementsOf at h
  split at h
  · rename_i hcode
    obtain rfl := Except.ok.inj h
    exact .default hcode
  · rename_i reader hcode
    obtain rfl := Except.ok.inj h
    exact .read hcode
  · rename_i name file? function? code? hcode
    split at h
    · rename_i htype
      obtain rfl := Except.ok.inj h
      exact .untyped hcode htype
    · rename_i type htype
      unfold ShaderGraph.sourceStatements at h
      split at h
      · split at h
        · rename_i e hexpand
          obtain rfl := Except.ok.inj h
          exact .inline hcode htype hexpand
        · cases h
      · split at h
        · cases h
        · obtain rfl := Except.ok.inj h
          exact .call hcode htype

/-- A node declares its output or nothing. -/
theorem statementsOf_declared (h : g.statementsOf n = .ok statements) :
    (n.DeclaresOutput ∧ declaredBy statements = [n.outputVariable]) ∨
      (¬ n.DeclaresOutput ∧ declaredBy statements = []) := by
  unfold ShaderNode.DeclaresOutput
  cases statementsOf_cases h with
  | default hcode =>
    rw [hcode]
    unfold ShaderNode.defaultStatement
    cases Glsl.typeName? n.type with
    | none => exact .inr ⟨by simp, rfl⟩
    | some type =>
      cases Glsl.defaultLiteral? n.type with
      | none => exact .inr ⟨by simp, rfl⟩
      | some literal => exact .inl ⟨by simp, rfl⟩
  | @read reader hcode =>
    rw [hcode]
    exact .inl ⟨trivial, by simp [declaredBy, (geometryRead_declared reader n).1]⟩
  | untyped hcode htype =>
    rw [hcode, htype]
    exact .inr ⟨by simp, rfl⟩
  | inline hcode htype _ =>
    rw [hcode, htype]
    exact .inl ⟨rfl, rfl⟩
  | call hcode htype =>
    rw [hcode, htype]
    exact .inl ⟨rfl, rfl⟩

/-- The outputs that the expression for an input uses are those of the node it is connected to. -/
theorem inputExpression_outputs {input : ShaderInput} {v : String}
    (h : v ∈ (g.inputExpression input).outputs) :
    ∃ i m, input.binding = .connection i ∧ g.nodes[i]? = some m ∧ v = m.outputVariable := by
  unfold ShaderGraph.inputExpression at h
  cases hb : input.binding with
  | connection i =>
    cases hm : g.nodes[i]? with
    | some m =>
      simp only [hb, hm, Expression.outputs, List.filterMap_cons, List.filterMap_nil,
        List.mem_singleton] at h
      exact ⟨i, m, rfl, hm, h⟩
    | none => simp [hb, hm, Expression.outputs, Expression.ofText] at h
  | uniform name => simp [hb, Expression.outputs, Expression.ofText] at h
  | constant value => simp [hb, Expression.outputs, Expression.ofText] at h
  | unbound => simp [hb, Expression.outputs, Expression.ofText] at h

theorem outputs_append (a b : Expression) :
    Expression.outputs (a ++ b) = a.outputs ++ b.outputs := List.filterMap_append

/-- An expanded template uses only outputs that the inputs it names use. -/
theorem expand_outputs {input? : String → Option Expression} {cs : List Char} {e : Expression}
    (h : Template.expand input? cs = .ok e) {v : String} (hv : v ∈ e.outputs) :
    ∃ name inserted, input? name = some inserted ∧ v ∈ inserted.outputs := by
  fun_induction Template.expand input? cs generalizing e with
  | case1 cs hsplit =>
    cases h
    cases hv
  | case2 => cases h
  | case3 => cases h
  | case4 =>
    rename_i inserted hinput ih
    obtain ⟨tail, htail, rfl⟩ := Graph.map_ok.mp h
    have hv' : v ∈ inserted.outputs ++ Expression.outputs tail := by
      rw [← outputs_append]
      exact hv
    rcases List.mem_append.mp hv' with hin | hrest
    · exact ⟨_, inserted, hinput, hin⟩
    · exact ih htail hrest

/-- What the expression for an input of a node uses is the output of a node that the node uses. -/
theorem inputExpression_sources {input : ShaderInput} (hinput : input ∈ n.inputs) {v : String}
    (h : v ∈ (g.inputExpression input).outputs) :
    ∃ i ∈ n.sources, ∃ m, g.nodes[i]? = some m ∧ v = m.outputVariable := by
  obtain ⟨i, m, hb, hm, rfl⟩ := inputExpression_outputs h
  exact ⟨i, ShaderNode.mem_sources.mpr ⟨input, hinput, hb⟩, m, hm, rfl⟩

/-- The statements of a node use only outputs of the nodes that it uses. -/
theorem statementsOf_outputs (h : g.statementsOf n = .ok statements) {s : Statement}
    (hs : s ∈ statements) {v : String} (hv : v ∈ s.outputs) :
    ∃ i ∈ n.sources, ∃ m, g.nodes[i]? = some m ∧ v = m.outputVariable := by
  cases statementsOf_cases h with
  | default _ =>
    obtain rfl := List.mem_singleton.mp hs
    unfold ShaderNode.defaultStatement at hv
    split at hv
    · cases hv
    · cases hv
  | @read reader _ =>
    obtain rfl := List.mem_singleton.mp hs
    rw [(geometryRead_declared reader n).2] at hv
    cases hv
  | untyped _ _ =>
    obtain rfl := List.mem_singleton.mp hs
    cases hv
  | inline _ _ hexpand =>
    obtain rfl := List.mem_singleton.mp hs
    obtain ⟨_, inserted, hinserted, hin⟩ := expand_outputs hexpand hv
    obtain ⟨input, hfind, rfl⟩ := Option.map_eq_some_iff.mp hinserted
    exact inputExpression_sources (List.mem_of_find?_eq_some hfind) hin
  | call _ _ =>
    rcases List.mem_cons.mp hs with rfl | hs
    · cases hd : Glsl.defaultLiteral? n.type with
      | none => simp [Statement.outputs, hd] at hv
      | some literal => simp [Statement.outputs, hd, Expression.outputs, Expression.ofText] at hv
    · obtain rfl := List.mem_singleton.mp hs
      obtain ⟨argument, harg, hin⟩ := List.mem_flatMap.mp hv
      rcases List.mem_append.mp harg with harg | harg
      · obtain ⟨input, hinput, rfl⟩ := List.mem_map.mp harg
        exact inputExpression_sources (List.mem_of_mem_filter hinput) hin
      · rw [List.mem_singleton.mp harg] at hin
        cases hin

/-! ## The statements of all nodes -/

theorem outputVariable_injective {n m : ShaderNode} (h : n.outputVariable = m.outputVariable) :
    n.name = m.name := by
  have hlist := congrArg String.toList h
  simp only [ShaderNode.outputVariable, String.toList_append, List.append_cancel_right_eq] at hlist
  exact String.toList_injective hlist

theorem index_eq_of_outputVariable (hnames : (g.nodes.map (·.name)).Nodup) {i j : Nat}
    {n m : ShaderNode} (hi : g.nodes[i]? = some n) (hj : g.nodes[j]? = some m)
    (h : n.outputVariable = m.outputVariable) : i = j := by
  obtain ⟨hlt, -⟩ := List.getElem?_eq_some_iff.mp hi
  have hlt' : i < (g.nodes.map (·.name)).length := by rwa [List.length_map]
  refine (List.getElem?_inj hlt' hnames).mp ?_
  rw [List.getElem?_map, List.getElem?_map, hi, hj, Option.map_some, Option.map_some,
    outputVariable_injective h]

/-- As no two nodes have one output variable, none of them is left out. -/
theorem statementsOfAll_eq {order : List Nat} {computed : List String}
    (hnames : (g.nodes.map (·.name)).Nodup) (hnodup : order.Nodup)
    (hlt : ∀ i ∈ order, i < g.nodes.length)
    (hnew : ∀ i ∈ order, ∀ m, g.nodes[i]? = some m → m.outputVariable ∉ computed)
    (h : g.statementsOfAll computed (order.filterMap (g.nodes[·]?)) = .ok statements) :
    (∀ i ∈ order, ∃ m, g.nodes[i]? = some m ∧ g.statementsOf m = .ok (g.ownStatements i)) ∧
      statements = order.flatMap g.ownStatements := by
  induction order generalizing computed statements with
  | nil =>
    cases h
    exact ⟨by simp, rfl⟩
  | cons i rest ih =>
    obtain ⟨m, hm⟩ : ∃ m, g.nodes[i]? = some m :=
      ⟨_, List.getElem?_eq_getElem (hlt i (List.mem_cons_self ..))⟩
    have hfresh := hnew i (List.mem_cons_self ..) m hm
    rw [List.filterMap_cons, hm] at h
    simp only [ShaderGraph.statementsOfAll, List.contains_eq_mem, hfresh, decide_false] at h
    obtain ⟨own, hown, h⟩ := Graph.ok_bind.mp h
    obtain ⟨others, hothers, h⟩ := Graph.ok_bind.mp h
    obtain rfl := Except.ok.inj h
    have hself : g.ownStatements i = own := by
      simp only [ShaderGraph.ownStatements, hm, hown]
      rfl
    obtain ⟨hirest, hrest⟩ := List.nodup_cons.mp hnodup
    have hnew' : ∀ j ∈ rest, ∀ m', g.nodes[j]? = some m' →
        m'.outputVariable ∉ m.outputVariable :: computed := by
      intro j hj m' hm' hmem
      rcases List.mem_cons.mp hmem with heq | hmem
      · exact hirest (index_eq_of_outputVariable hnames hm' hm heq ▸ hj)
      · exact hnew j (List.mem_cons_of_mem _ hj) m' hm' hmem
    obtain ⟨hall, rfl⟩ := ih hrest (fun j hj => hlt j (List.mem_cons_of_mem _ hj)) hnew' hothers
    refine ⟨fun j hj => ?_, by rw [List.flatMap_cons, hself]⟩
    rcases List.mem_cons.mp hj with rfl | hj
    · exact ⟨m, hm, by rw [hself, hown]⟩
    · exact hall j hj

/-! ## The whole main function -/

/-- A statement among those of several parts belongs to a part or comes after all of them. -/
theorem split_flatMap {α β : Type} {f : α → List β} {xs : List α} {tail before after : List β}
    {s : β} (h : xs.flatMap f ++ tail = before ++ s :: after) :
    (∃ k x, xs[k]? = some x ∧ s ∈ f x ∧ (xs.take k).flatMap f <+: before) ∨
      (s ∈ tail ∧ xs.flatMap f <+: before) := by
  induction xs generalizing before with
  | nil =>
    rw [List.flatMap_nil, List.nil_append] at h
    exact .inr ⟨h ▸ by simp, List.nil_prefix⟩
  | cons x rest ih =>
    rw [List.flatMap_cons, List.append_assoc] at h
    rcases List.append_eq_append_iff.mp h with ⟨more, rfl, hrest⟩ | ⟨more, hx, hrest⟩
    · rcases ih hrest with ⟨k, y, hk, hs, hprefix⟩ | ⟨hs, hprefix⟩
      · exact .inl ⟨k + 1, y, hk, hs, List.prefix_append_right_inj _ |>.mpr hprefix⟩
      · exact .inr ⟨hs, List.prefix_append_right_inj _ |>.mpr hprefix⟩
    · cases more with
      | nil =>
        -- the cut is between the statements of `x` and those of the rest
        rw [List.append_nil] at hx
        rw [List.nil_append] at hrest
        have hrest' : rest.flatMap f ++ tail = [] ++ s :: after := hrest.symm
        rcases ih hrest' with ⟨k, y, hk, hs, hnil⟩ | ⟨hs, hnil⟩
        · have hbefore : ((x :: rest).take (k + 1)).flatMap f = before := by
            rw [List.take_succ_cons, List.flatMap_cons, List.prefix_nil.mp hnil, List.append_nil,
              hx]
          exact .inl ⟨k + 1, y, hk, hs, hbefore ▸ List.prefix_rfl⟩
        · have hbefore : (x :: rest).flatMap f = before := by
            rw [List.flatMap_cons, List.prefix_nil.mp hnil, List.append_nil, hx]
          exact .inr ⟨hs, hbefore ▸ List.prefix_rfl⟩
      | cons t more =>
        rw [List.cons_append, List.cons.injEq] at hrest
        exact .inl ⟨0, x, rfl, by rw [hx, hrest.1]; simp, List.nil_prefix⟩

/-- Some statements use one output only and declare none of a node. -/
def OnlyUses (output : String) (statements : List Statement) : Prop :=
  (∀ s ∈ statements, ∀ v ∈ s.outputs, v = output) ∧ (declaredBy statements).Sublist ["outAlpha"]

theorem assignColor_onlyUses (before output after : String) :
    OnlyUses output [assignColor before output after] := by
  refine ⟨fun s hs v hv => ?_, List.nil_sublist _⟩
  obtain rfl := List.mem_singleton.mp hs
  exact List.mem_singleton.mp hv

theorem surfaceStatements_onlyUses (output : String) (transparency : Bool) :
    OnlyUses output (surfaceStatements output transparency) := by
  unfold surfaceStatements
  split
  · refine ⟨fun s hs v hv => ?_, List.Sublist.refl _⟩
    rcases List.mem_cons.mp hs with rfl | hs
    · exact List.mem_singleton.mp hv
    · obtain rfl := List.mem_singleton.mp hs
      exact List.mem_singleton.mp hv
  · exact assignColor_onlyUses _ output _

/-- The statements that write the color use the output of the root, whose type has a name and a
default in shaders. -/
theorem finalStatements?_spec {type : ValueType} {output : String} {transparency : Bool}
    (h : finalStatements? type output transparency = some statements) :
    OnlyUses output statements ∧
      (Glsl.typeName? type).isSome ∧ (Glsl.defaultLiteral? type).isSome := by
  unfold finalStatements? at h
  split at h
  case h_1 =>
    cases h
    exact ⟨surfaceStatements_onlyUses output transparency, rfl, rfl⟩
  case h_2 =>
    cases h
    exact ⟨surfaceStatements_onlyUses output transparency, rfl, rfl⟩
  case h_11 => cases h
  all_goals
    cases h
    exact ⟨assignColor_onlyUses _ output _, rfl, rfl⟩

theorem outputVariable_ne_outAlpha (n : ShaderNode) : n.outputVariable ≠ "outAlpha" := by
  intro h
  have hlast := congrArg (fun s => s.toList.getLast?) h
  simp [ShaderNode.outputVariable, String.toList_append] at hlast

/-- The main function of a shader for a graph: the statements of the nodes that the root reaches, in
the order of the graph, and then those that write the color. -/
structure MainBody (g : ShaderGraph) (transparency : Bool) (body : List Statement) where
  order : List Nat
  root : ShaderNode
  final : List Statement
  sorted : g.SortedFromRoot order
  names : (g.nodes.map (·.name)).Nodup
  rootNode : g.nodes[g.root]? = some root
  own : ∀ i ∈ order, ∃ m, g.nodes[i]? = some m ∧ g.statementsOf m = .ok (g.ownStatements i)
  isFinal : finalStatements? root.type root.outputVariable transparency = some final
  body_eq : body = order.flatMap g.ownStatements ++ final

namespace MainBody

variable {transparency : Bool} {body : List Statement} {i : Nat} {s : Statement} {v : String}

theorem root_mem (h : MainBody g transparency body) : g.root ∈ h.order :=
  (h.sorted.mem_iff g.root).mpr .refl

/-- What a node declares is its output. -/
theorem declared_own (h : MainBody g transparency body) (hi : i ∈ h.order)
    (hn : g.nodes[i]? = some n) :
    (n.DeclaresOutput ∧ declaredBy (g.ownStatements i) = [n.outputVariable]) ∨
      (¬ n.DeclaresOutput ∧ declaredBy (g.ownStatements i) = []) := by
  obtain ⟨m, hm, hown⟩ := h.own i hi
  obtain rfl : m = n := Option.some.inj (hm.symm.trans hn)
  exact statementsOf_declared hown

/-- A statement that uses an output stands after the statements of its node. -/
theorem own_subset_before (h : MainBody g transparency body) {before after : List Statement}
    (hsplit : body = before ++ s :: after) (hv : v ∈ s.outputs) :
    ∃ i n, i ∈ h.order ∧ g.nodes[i]? = some n ∧ v = n.outputVariable ∧
      g.ownStatements i ⊆ before := by
  rw [h.body_eq] at hsplit
  rcases split_flatMap hsplit with ⟨k, j, hk, hs, hbefore⟩ | ⟨hs, hbefore⟩
  · obtain ⟨m, hm, hown⟩ := h.own j (List.mem_of_getElem? hk)
    obtain ⟨i, hi, n, hn, rfl⟩ := statementsOf_outputs hown hs hv
    have huses : g.Uses j i := ShaderGraph.mem_sources.mpr ⟨m, hm, hi⟩
    have htake := h.sorted.follows k j hk i huses
    refine ⟨i, n, List.mem_of_mem_take htake, hn, rfl, fun t ht => ?_⟩
    exact hbefore.subset (List.mem_flatMap.mpr ⟨i, htake, ht⟩)
  · obtain ⟨⟨huses, -⟩, -⟩ := finalStatements?_spec h.isFinal
    refine ⟨g.root, h.root, h.root_mem, h.rootNode, huses s hs v hv, fun t ht => ?_⟩
    exact hbefore.subset (List.mem_flatMap.mpr ⟨g.root, h.root_mem, ht⟩)

/-- The output of a node is declared only by the statements of the node. -/
theorem declaresOutput_of_mem (h : MainBody g transparency body) (hn : g.nodes[i]? = some n)
    (hs : s ∈ body) (hdeclared : s.declared? = some n.outputVariable) : n.DeclaresOutput := by
  rw [h.body_eq] at hs
  rcases List.mem_append.mp hs with hs | hs
  · obtain ⟨j, hj, hs⟩ := List.mem_flatMap.mp hs
    obtain ⟨m, hm, -⟩ := h.own j hj
    have hmem : n.outputVariable ∈ declaredBy (g.ownStatements j) :=
      mem_declaredBy.mpr ⟨s, hs, hdeclared⟩
    rcases h.declared_own hj hm with ⟨hdeclares, hown⟩ | ⟨-, hown⟩
    · rw [hown, List.mem_singleton] at hmem
      obtain rfl := index_eq_of_outputVariable h.names hn hm hmem
      obtain rfl : m = n := Option.some.inj (hm.symm.trans hn)
      exact hdeclares
    · rw [hown] at hmem
      cases hmem
  · obtain ⟨⟨-, hsub⟩, -⟩ := finalStatements?_spec h.isFinal
    have hmem := hsub.subset (mem_declaredBy.mpr ⟨s, hs, hdeclared⟩)
    exact absurd (List.mem_singleton.mp hmem) (outputVariable_ne_outAlpha n)

/-- Every output that is used is that of a node that the root reaches, and it is declared before if
and only if the node declares it. -/
theorem declared_before_iff (h : MainBody g transparency body) {before after : List Statement}
    (hsplit : body = before ++ s :: after) (hv : v ∈ s.outputs) :
    ∃ i n, g.Reaches i ∧ g.nodes[i]? = some n ∧ v = n.outputVariable ∧
      ((∃ t ∈ before, t.declared? = some v) ↔ n.DeclaresOutput) := by
  obtain ⟨i, n, hi, hn, rfl, hsub⟩ := h.own_subset_before hsplit hv
  refine ⟨i, n, (h.sorted.mem_iff i).mp hi, hn, rfl, fun ⟨t, ht, hdeclared⟩ => ?_, fun hd => ?_⟩
  · exact h.declaresOutput_of_mem hn (hsplit ▸ List.mem_append_left _ ht) hdeclared
  · rcases h.declared_own hi hn with ⟨-, hown⟩ | ⟨hnot, -⟩
    · obtain ⟨t, ht, hdeclared⟩ :=
        mem_declaredBy.mp (hown ▸ List.mem_singleton_self n.outputVariable)
      exact ⟨t, hsub ht, hdeclared⟩
    · exact absurd hd hnot

/-- Every output is declared before it is used exactly if all nodes whose outputs are used declare
them. -/
theorem declaredBeforeUse_iff (h : MainBody g transparency body) :
    DeclaredBeforeUse body ↔
      ∀ i n, g.Reaches i → g.nodes[i]? = some n → (∃ s ∈ body, n.outputVariable ∈ s.outputs) →
        n.DeclaresOutput := by
  constructor
  · rintro hbefore i n - hn ⟨s, hs, hv⟩
    obtain ⟨before, after, hsplit⟩ := List.append_of_mem hs
    obtain ⟨t, ht, hdeclared⟩ := hbefore before s after hsplit _ hv
    exact h.declaresOutput_of_mem hn (hsplit ▸ List.mem_append_left _ ht) hdeclared
  · intro hall before s after hsplit v hv
    obtain ⟨i, n, hr, hn, rfl, hiff⟩ := h.declared_before_iff hsplit hv
    exact hiff.mpr (hall i n hr hn ⟨s, hsplit ▸ by simp, hv⟩)

/-- The root declares its output. -/
theorem root_declaresOutput (h : MainBody g transparency body) : h.root.DeclaresOutput := by
  obtain ⟨-, htype, hdefault⟩ := finalStatements?_spec h.isFinal
  unfold ShaderNode.DeclaresOutput
  split
  · exact ⟨htype, hdefault⟩
  · trivial
  · exact htype

/-- The variable that holds the output of the node at an index. -/
def outputAt (g : ShaderGraph) (index : Nat) : String :=
  (g.nodes[index]?).elim "" (·.outputVariable)

theorem declaredBy_flatMap_sublist (h : MainBody g transparency body) {indices : List Nat}
    (hsub : indices ⊆ h.order) :
    (declaredBy (indices.flatMap g.ownStatements)).Sublist (indices.map (outputAt g)) := by
  induction indices with
  | nil => exact List.Sublist.refl _
  | cons i rest ih =>
    obtain ⟨hi, hrest⟩ := List.cons_subset.mp hsub
    obtain ⟨m, hm, -⟩ := h.own i hi
    have hat : outputAt g i = m.outputVariable := by simp [outputAt, hm]
    have hself : (declaredBy (g.ownStatements i)).Sublist [outputAt g i] := by
      rcases h.declared_own hi hm with ⟨-, hown⟩ | ⟨-, hown⟩
      · rw [hown, hat]
      · rw [hown]
        exact List.nil_sublist _
    rw [List.flatMap_cons, declaredBy, List.filterMap_append]
    exact hself.append (ih hrest)

/-- No variable is declared twice. -/
theorem declaredBy_nodup (h : MainBody g transparency body) : (declaredBy body).Nodup := by
  have hnodes : (declaredBy (h.order.flatMap g.ownStatements)).Nodup := by
    refine (List.Nodup.map_on ?_ h.sorted.nodup).sublist
      (h.declaredBy_flatMap_sublist (List.Subset.refl _))
    intro i hi j hj heq
    obtain ⟨n, hn, -⟩ := h.own i hi
    obtain ⟨m, hm, -⟩ := h.own j hj
    simp only [outputAt, hn, hm, Option.elim_some] at heq
    exact index_eq_of_outputVariable h.names hn hm heq
  obtain ⟨⟨-, hfinal⟩, -⟩ := finalStatements?_spec h.isFinal
  rw [h.body_eq, declaredBy, List.filterMap_append]
  refine List.nodup_append.mpr ⟨hnodes, (List.nodup_singleton _).sublist hfinal, ?_⟩
  intro v hv w hw heq
  have hmap := (h.declaredBy_flatMap_sublist (List.Subset.refl _)).subset hv
  obtain ⟨i, hi, rfl⟩ := List.mem_map.mp hmap
  obtain ⟨n, hn, -⟩ := h.own i hi
  have hw' : w = "outAlpha" := List.mem_singleton.mp (hfinal.subset hw)
  simp only [outputAt, hn, Option.elim_some] at heq
  exact outputVariable_ne_outAlpha n (heq.trans hw')

end MainBody

/-! ## The generated shader -/

theorem parts_functions {gen : ShaderGenerator} {d : Document} {files : FileTree}
    {options : GeneratorOptions} {graph : ShaderGraph} {nodes : List ShaderNode}
    {final : List Statement} {isLit : Bool} {parts : ShaderParts}
    (h : gen.parts d files options graph nodes final isLit = .ok parts) :
    gen.functions d files options isLit nodes = .ok parts.functions := by
  unfold ShaderGenerator.parts at h
  obtain ⟨functions, hfunctions, h⟩ := Graph.ok_bind.mp h
  obtain ⟨statements, -, h⟩ := Graph.ok_bind.mp h
  obtain rfl := Except.ok.inj h
  exact hfunctions

theorem parts_ok {gen : ShaderGenerator} {d : Document} {files : FileTree}
    {options : GeneratorOptions} {nodes : List ShaderNode} {final : List Statement} {isLit : Bool}
    {parts : ShaderParts} (h : gen.parts d files options g nodes final isLit = .ok parts) :
    ∃ statements, g.statementsOfAll [] nodes = .ok statements ∧
      parts.pixelBody = statements ++ final := by
  unfold ShaderGenerator.parts at h
  obtain ⟨functions, -, h⟩ := Graph.ok_bind.mp h
  obtain ⟨statements, hstatements, h⟩ := Graph.ok_bind.mp h
  obtain rfl := Except.ok.inj h
  exact ⟨statements, hstatements, rfl⟩

/-- A generated shader is made of the parts for a graph of its element, whose nodes are given in the
order of the main function. -/
theorem generate_main {gen : ShaderGenerator} {d : Document} {files : FileTree} {path : String}
    {options : GeneratorOptions} {shader : GeneratedShader}
    (h : gen.generate d files path options = .ok shader) :
    ∃ g parts, Graph.build ⟨d, options, gen.registry⟩ path = .ok g ∧
      ∃ main : MainBody g options.transparency parts.pixelBody,
        gen.parts d files options g (main.order.filterMap (g.nodes[·]?)) main.final
          (main.root.type = .closure .surfaceShader) = .ok parts ∧
        shader = {
          name := path
          vertexSource := parts.vertexSource
          pixelSource := parts.pixelSource
          transparency := options.transparency
          publicUniforms := g.uniforms
          privateUniforms := parts.privateUniforms (main.root.type = .closure .surfaceShader)
          vertexInputs := parts.vertexInputs
          lightData := parts.lightData
          maxLights := parts.maxLights } := by
  unfold ShaderGenerator.generate at h
  obtain ⟨g, hbuild, h⟩ := Graph.ok_bind.mp h
  obtain ⟨hroot, hback, hnames⟩ := Graph.graphWithin_pointsBack hbuild
  obtain ⟨order, horder, hsorted⟩ := hback.order?_sorted hroot
  obtain ⟨root, hrootNode⟩ : ∃ root, g.rootNode? = some root :=
    ⟨_, List.getElem?_eq_getElem hroot⟩
  simp only [horder, hrootNode] at h
  cases hfinal : finalStatements? root.type root.outputVariable options.transparency with
  | none =>
    rw [hfinal] at h
    cases h
  | some final =>
    simp only [hfinal] at h
    obtain ⟨parts, hparts, h⟩ := Graph.ok_bind.mp h
    obtain ⟨statements, hstatements, hbody⟩ := parts_ok hparts
    have hlt : ∀ i ∈ order, i < g.nodes.length := by
      intro i hi
      exact (hback.le_of_reaches ((hsorted.mem_iff i).mp hi)).trans_lt hroot
    obtain ⟨hown, hall⟩ :=
      statementsOfAll_eq hnames hsorted.nodup hlt (fun _ _ _ _ hin => by cases hin) hstatements
    let main : MainBody g options.transparency parts.pixelBody :=
      { order, root, final, sorted := hsorted, names := hnames, rootNode := hrootNode, own := hown
        isFinal := hfinal, body_eq := by rw [hbody, hall] }
    exact ⟨g, parts, hbuild, main, hparts, (Except.ok.inj h).symm⟩

/-- The main function of a generated shader. -/
theorem generate_ok {gen : ShaderGenerator} {d : Document} {files : FileTree} {path : String}
    {options : GeneratorOptions} {shader : GeneratedShader}
    (h : gen.generate d files path options = .ok shader) :
    ∃ g body header, Graph.build ⟨d, options, gen.registry⟩ path = .ok g ∧
      Nonempty (MainBody g options.transparency body) ∧
      shader.pixelSource = header ++ ShaderParts.mainText body := by
  obtain ⟨g, parts, hbuild, main, -, rfl⟩ := generate_main h
  exact ⟨g, parts.pixelBody, _, hbuild, ⟨main⟩, rfl⟩

/-- The main function of a generated shader holds the statements of every node that the root
reaches, once and after those of the nodes it uses. No variable is declared twice, only outputs of
such nodes are used, and they are all declared before exactly if their nodes declare them; the root
does. -/
theorem generate_declarations {gen : ShaderGenerator} {d : Document} {files : FileTree}
    {path : String} {options : GeneratorOptions} {shader : GeneratedShader}
    (h : gen.generate d files path options = .ok shader) :
    ∃ g body header, Graph.build ⟨d, options, gen.registry⟩ path = .ok g ∧
      shader.pixelSource = header ++ ShaderParts.mainText body ∧
      ∃ main : MainBody g options.transparency body,
        (declaredBy body).Nodup ∧ main.root.DeclaresOutput ∧
        (∀ s ∈ body, ∀ v ∈ s.outputs, ∃ i n, g.Reaches i ∧ g.nodes[i]? = some n ∧
          v = n.outputVariable) ∧
        (DeclaredBeforeUse body ↔
          ∀ i n, g.Reaches i → g.nodes[i]? = some n →
            (∃ s ∈ body, n.outputVariable ∈ s.outputs) → n.DeclaresOutput) := by
  obtain ⟨g, body, header, hbuild, ⟨main⟩, hsource⟩ := generate_ok h
  refine ⟨g, body, header, hbuild, hsource, main, main.declaredBy_nodup, main.root_declaresOutput,
    fun s hs v hv => ?_, main.declaredBeforeUse_iff⟩
  obtain ⟨before, after, hsplit⟩ := List.append_of_mem hs
  obtain ⟨i, n, hr, hn, heq, -⟩ := main.declared_before_iff hsplit hv
  exact ⟨i, n, hr, hn, heq⟩

namespace Graph

/-- A node with a float input that is connected to a node of type string without a definition. -/
def Sample.label : Request :=
  request
    [definition "mix" "float" [input "a" "float"],
      implementation "mix" "\x7b\x7ba\x7d\x7d",
      node "mix" "top" "float" [link "a" "label"], node "note" "label" "string" []]

end Graph

/-- The shader for this node. -/
def labelShader : Except GenerationError GeneratedShader :=
  ({} : ShaderGenerator).generate Graph.Sample.label.document (.empty []) "top" {}

theorem generate_declarations_label : ∃ shader, labelShader = .ok shader ∧
    ∃ g body header, Graph.build Graph.Sample.label "top" = .ok g ∧
      shader.pixelSource = header ++ ShaderParts.mainText body ∧
      ∃ main : MainBody g false body,
        (declaredBy body).Nodup ∧ main.root.DeclaresOutput ∧
        (∀ s ∈ body, ∀ v ∈ s.outputs, ∃ i n, g.Reaches i ∧ g.nodes[i]? = some n ∧
          v = n.outputVariable) ∧
        (DeclaredBeforeUse body ↔
          ∀ i n, g.Reaches i → g.nodes[i]? = some n →
            (∃ s ∈ body, n.outputVariable ∈ s.outputs) → n.DeclaresOutput) := by
  have heval : labelShader.toOption.map (·.name) = some "top" := by decide +kernel
  obtain ⟨shader, hshader, -⟩ := Graph.Sample.exists_ok_of_map heval
  exact ⟨shader, hshader, generate_declarations hshader⟩

/-- The variable `label_out` is used, but it is not declared. -/
theorem not_declaredBeforeUse_label : ∃ shader g body header, labelShader = .ok shader ∧
    Graph.build Graph.Sample.label "top" = .ok g ∧
    shader.pixelSource = header ++ ShaderParts.mainText body ∧
    Nonempty (MainBody g false body) ∧ ¬ DeclaredBeforeUse body := by
  have heval : labelShader.toOption.map (·.name) = some "top" := by decide +kernel
  obtain ⟨shader, hshader, -⟩ := Graph.Sample.exists_ok_of_map heval
  obtain ⟨g, body, header, hbuild, ⟨main⟩, hsource⟩ := generate_ok hshader
  refine ⟨shader, g, body, header, hshader, hbuild, hsource, ⟨main⟩, fun hbefore => ?_⟩
  have hgraph : (Graph.build Graph.Sample.label "top").toOption.map (fun g =>
      (g.root, g.sources 1, (g.ownStatements 1).map Statement.outputs)) =
      some (1, [0], [["label_out"]]) := by decide +kernel
  have hlabel : (Graph.build Graph.Sample.label "top").toOption.bind (fun g =>
      g.nodes[0]?.map fun n => (n.name, n.code?.isNone, Glsl.typeName? n.type)) =
      some ("label", true, none) := by decide +kernel
  obtain ⟨g', hbuild', hview⟩ := Graph.Sample.exists_ok_of_map hgraph
  obtain rfl : g' = g := Except.ok.inj (hbuild'.symm.trans hbuild)
  simp only [Prod.mk.injEq] at hview
  obtain ⟨hroot, hsources, hoperands⟩ := hview
  rw [hbuild'] at hlabel
  obtain ⟨n, hn, hnode⟩ := Option.map_eq_some_iff.mp hlabel
  simp only [Prod.mk.injEq, Option.isNone_iff_eq_none] at hnode
  obtain ⟨hname, hcode, htype⟩ := hnode
  have hreaches : g'.Reaches 0 := by
    refine .single ?_
    show 0 ∈ g'.sources g'.root
    rw [hroot, hsources]
    exact List.mem_singleton_self 0
  obtain ⟨s, hs, hoperand⟩ : ∃ s ∈ g'.ownStatements 1, s.outputs = ["label_out"] := by
    have hmem : ["label_out"] ∈ (g'.ownStatements 1).map Statement.outputs := by
      rw [hoperands]
      exact List.mem_singleton_self _
    exact List.mem_map.mp hmem
  have hbody : s ∈ body := by
    rw [main.body_eq]
    have hone : 1 ∈ main.order := hroot ▸ main.root_mem
    exact List.mem_append_left _ (List.mem_flatMap.mpr ⟨1, hone, hs⟩)
  have huse : n.outputVariable ∈ s.outputs := by
    rw [hoperand, ShaderNode.outputVariable, hname]
    decide
  have hdeclares := main.declaredBeforeUse_iff.mp hbefore 0 n hreaches hn ⟨s, hbody, huse⟩
  simp [ShaderNode.DeclaresOutput, hcode, htype] at hdeclares

end MaterialViewer
