import Mathlib.Logic.Relation
import MaterialViewer.Graph.Order
import MaterialViewer.Proofs.Graph.Sample
import MaterialViewer.Proofs.Graph.Sound

/-!
# Proofs: the order of a shader graph

In a graph whose connections all point back to earlier nodes the depth-first search finds an order:
each node that the root depends on is listed once, after the nodes that it uses, and the root comes
last. The nodes on the way from the root are all later than the node that is visited, so none of
them is met again. The graphs that are built are of this kind.
-/

namespace MaterialViewer

theorem ShaderNode.mem_sources {n : ShaderNode} {i : Nat} :
    i ∈ n.sources ↔ ∃ input ∈ n.inputs, input.binding = .connection i := by
  unfold sources
  rw [List.mem_filterMap]
  refine exists_congr fun input => and_congr_right fun _ => ?_
  cases input.binding <;> simp

end MaterialViewer

namespace MaterialViewer.ShaderGraph

open Relation

/-- Node `j` takes a value from node `i`. -/
def Uses (g : ShaderGraph) (j i : Nat) : Prop := i ∈ g.sources j

/-- The root depends on node `i`, or is this node. -/
def Reaches (g : ShaderGraph) (i : Nat) : Prop := ReflTransGen g.Uses g.root i

/-- Every node takes its values from earlier nodes. -/
def PointsBack (g : ShaderGraph) : Prop := ∀ j i, g.Uses j i → i < j

/-- No node is listed twice, and every node is listed after the nodes that it uses. -/
structure Sorted (g : ShaderGraph) (order : List Nat) : Prop where
  nodup : order.Nodup
  follows : ∀ k j, order[k]? = some j → ∀ i, g.Uses j i → i ∈ order.take k

/-- A sorted list of exactly the nodes that the root reaches, with the root at its end. -/
structure SortedFromRoot (g : ShaderGraph) (order : List Nat) : Prop extends Sorted g order where
  mem_iff : ∀ i, i ∈ order ↔ g.Reaches i
  last : order.getLast? = some g.root

/-- The list `order'` continues `order` and is sorted. It holds `starts`, and all that is new in it
is reached from one of them. -/
structure Continues (g : ShaderGraph) (order order' starts : List Nat) : Prop
    extends Sorted g order' where
  extended : order <+: order'
  holds : ∀ i ∈ starts, i ∈ order'
  reached : ∀ i ∈ order', i ∈ order ∨ ∃ s ∈ starts, ReflTransGen g.Uses s i

variable {g : ShaderGraph} {order order' : List Nat} {index : Nat}

theorem mem_sources {i j : Nat} :
    i ∈ g.sources j ↔ ∃ node, g.nodes[j]? = some node ∧ i ∈ node.sources := by
  unfold sources
  cases g.nodes[j]? <;> simp

theorem Sorted.nil (g : ShaderGraph) : g.Sorted [] :=
  ⟨List.nodup_nil, fun k j h => by simp at h⟩

theorem Sorted.snoc (h : g.Sorted order) (hnew : index ∉ order)
    (hsources : ∀ i, g.Uses index i → i ∈ order) : g.Sorted (order ++ [index]) := by
  refine ⟨by simpa using h.nodup.concat hnew, ?_⟩
  intro k j hk i hi
  by_cases hlt : k < order.length
  · rw [List.getElem?_append_left hlt] at hk
    rw [List.take_append_of_le_length hlt.le]
    exact h.follows k j hk i hi
  · rw [List.getElem?_append_right (not_lt.mp hlt), List.getElem?_singleton] at hk
    obtain ⟨hk₀, hj⟩ := Option.ite_none_right_eq_some.mp hk
    obtain rfl := Option.some.inj hj
    have hlen : k = order.length := by omega
    rw [hlen, List.take_left]
    exact hsources i hi

theorem Sorted.mem_of_uses (h : g.Sorted order) {i j : Nat} (hj : j ∈ order) (hi : g.Uses j i) :
    i ∈ order := by
  obtain ⟨k, hk⟩ := List.mem_iff_getElem?.mp hj
  exact List.mem_of_mem_take (h.follows k j hk i hi)

/-- A sorted list holds with a node all that the node depends on. -/
theorem Sorted.mem_of_reaches (h : g.Sorted order) {i j : Nat} (hj : j ∈ order)
    (hr : ReflTransGen g.Uses j i) : i ∈ order := by
  induction hr with
  | refl => exact hj
  | tail _ huses ih => exact h.mem_of_uses ih huses

theorem Continues.refl (h : g.Sorted order) (starts : List Nat) (hs : ∀ i ∈ starts, i ∈ order) :
    g.Continues order order starts :=
  { h with extended := List.prefix_rfl, holds := hs, reached := fun _ hi => .inl hi }

theorem Continues.cons {order₁ order₂ rest : List Nat} (h₁ : g.Continues order order₁ [index])
    (h₂ : g.Continues order₁ order₂ rest) : g.Continues order order₂ (index :: rest) := by
  refine { h₂.toSorted with extended := h₁.extended.trans h₂.extended, holds := ?_, reached := ?_ }
  · intro i hi
    rcases List.mem_cons.mp hi with rfl | hi
    · exact h₂.extended.subset (h₁.holds i (List.mem_singleton_self i))
    · exact h₂.holds i hi
  · intro i hi
    rcases h₂.reached i hi with hi₁ | ⟨s, hs, hr⟩
    · rcases h₁.reached i hi₁ with hi₀ | ⟨s, hs, hr⟩
      · exact .inl hi₀
      · exact .inr ⟨s, List.mem_cons.mpr (.inl (List.mem_singleton.mp hs)), hr⟩
    · exact .inr ⟨s, List.mem_cons_of_mem _ hs, hr⟩

/-- A node may be listed once all that it uses is. -/
theorem Continues.finish (h : g.Continues order order' (g.sources index)) (hnew : index ∉ order') :
    g.Continues order (order' ++ [index]) [index] := by
  refine { h.toSorted.snoc hnew h.holds with
    extended := h.extended.trans (List.prefix_append _ _), holds := by simp, reached := ?_ }
  intro i hi
  rcases List.mem_append.mp hi with hi | hi
  · rcases h.reached i hi with hi | ⟨s, hs, hr⟩
    · exact .inl hi
    · exact .inr ⟨index, List.mem_singleton_self index, .head hs hr⟩
  · exact .inr ⟨i, hi, .refl⟩

/-- What a node depends on does not come after it. -/
theorem PointsBack.le_of_reaches (hg : g.PointsBack) {i j : Nat} (hr : ReflTransGen g.Uses j i) :
    i ≤ j := by
  induction hr with
  | refl => exact le_rfl
  | tail _ huses ih => exact (hg _ _ huses).le.trans ih

/-- Visiting several nodes one after the other. -/
theorem foldlM_continues {visitOne : List Nat → Nat → Option (List Nat)} {indices : List Nat}
    (hone : ∀ i ∈ indices, ∀ order, g.Sorted order →
      ∃ order', visitOne order i = some order' ∧ g.Continues order order' [i])
    (h : g.Sorted order) :
    ∃ order', indices.foldlM visitOne order = some order' ∧
      g.Continues order order' indices := by
  induction indices generalizing order with
  | nil => exact ⟨order, rfl, .refl h [] (by simp)⟩
  | cons i rest ih =>
    obtain ⟨order₁, h₁, hc₁⟩ := hone i (List.mem_cons_self ..) order h
    obtain ⟨order₂, h₂, hc₂⟩ :=
      ih (fun j hj => hone j (List.mem_cons_of_mem _ hj)) hc₁.toSorted
    exact ⟨order₂, by rw [List.foldlM_cons, h₁]; exact h₂, hc₁.cons hc₂⟩

/-- A node that depends on nothing met before is listed after all that it uses. -/
theorem visit_new {depth : Nat} {path : List Nat} (hpath : index ∉ path) (hnew : index ∉ order) :
    g.visit (depth + 1) path order index =
      ((g.sources index).foldlM (g.visit depth (index :: path)) order).map (· ++ [index]) := by
  simp [visit, hpath, hnew]

/-- A visit of a node below all those on the way to it. -/
theorem visit_continues (hg : g.PointsBack) {depth : Nat} {path : List Nat} (h : g.Sorted order)
    (hdepth : index < depth) (hpath : ∀ p ∈ path, index < p) :
    ∃ order', g.visit depth path order index = some order' ∧
      g.Continues order order' [index] := by
  induction depth generalizing path order index with
  | zero => omega
  | succ depth ih =>
    have hnot : index ∉ path := fun hp => absurd (hpath index hp) (lt_irrefl index)
    by_cases hnew : index ∈ order
    · refine ⟨order, ?_, .refl h [index] (by simpa using hnew)⟩
      simp [visit, hnot, hnew]
    · have hsources : ∀ i ∈ g.sources index, ∀ order, g.Sorted order →
          ∃ order', g.visit depth (index :: path) order i = some order' ∧
            g.Continues order order' [i] := by
        intro i hi order' h'
        have hlt : i < index := hg index i hi
        refine ih h' (by omega) ?_
        intro p hp
        rcases List.mem_cons.mp hp with rfl | hp
        · exact hlt
        · exact hlt.trans (hpath p hp)
      obtain ⟨order', hfold, hc⟩ := foldlM_continues hsources h
      -- what was met below the node comes before it
      have hnew' : index ∉ order' := by
        intro hi
        rcases hc.reached index hi with hi | ⟨s, hs, hr⟩
        · exact hnew hi
        · exact absurd (hg.le_of_reaches hr) (not_le.mpr (hg index s hs))
      exact ⟨order' ++ [index], by rw [visit_new hnot hnew, hfold]; rfl, hc.finish hnew'⟩

/-- In a graph whose connections point back the search from the root succeeds, and what it finds is
the order wanted. -/
theorem PointsBack.order?_sorted (hg : g.PointsBack) (hroot : g.root < g.nodes.length) :
    ∃ order, g.order? = some order ∧ g.SortedFromRoot order := by
  have hpath : ∀ p ∈ ([] : List Nat), g.root < p := by simp
  have hdepth : g.root < g.nodes.length + 2 := by omega
  obtain ⟨order, hvisit, hc⟩ := visit_continues hg (Sorted.nil g) hdepth hpath
  have hmem : g.root ∈ order := hc.holds g.root (List.mem_singleton_self _)
  refine ⟨order, hvisit, { hc.toSorted with mem_iff := fun i => ⟨fun hi => ?_, fun hr => ?_⟩
                                            last := ?_ }⟩
  · rcases hc.reached i hi with hi | ⟨s, hs, hr⟩
    · exact absurd hi (List.not_mem_nil)
    · rw [List.mem_singleton.mp hs] at hr
      exact hr
  · exact hc.toSorted.mem_of_reaches hmem hr
  · rw [visit_new (by simp) (by simp)] at hvisit
    obtain ⟨order', _, rfl⟩ := Option.map_eq_some_iff.mp hvisit
    simp

end MaterialViewer.ShaderGraph

namespace MaterialViewer.Graph

theorem graphWithin_pointsBack {r : Request} {depth : Nat} {path : String} {g : ShaderGraph}
    (h : graphWithin r depth path = .ok g) :
    g.root < g.nodes.length ∧ g.PointsBack ∧ (g.nodes.map (·.name)).Nodup := by
  obtain ⟨⟨root, b⟩, hrun, rfl⟩ := map_ok.mp h
  obtain ⟨hsound, hroot⟩ := buildWithin_sound hrun
  refine ⟨hroot, fun j i huses => ?_, hsound.nodup⟩
  obtain ⟨node, hnode, hi⟩ := ShaderGraph.mem_sources.mp huses
  obtain ⟨input, hinput, hbinding⟩ := ShaderNode.mem_sources.mp hi
  exact (hsound.sourced j node hnode input hinput).node i hbinding

/-- The graph of an element, however deep the walk for it goes: the root exists, every connection
points back, and there is an order of the nodes that the root depends on. -/
theorem graphWithin_order {r : Request} {depth : Nat} {path : String} {g : ShaderGraph}
    (h : graphWithin r depth path = .ok g) :
    g.root < g.nodes.length ∧ g.PointsBack ∧
      ∃ order, g.order? = some order ∧ g.SortedFromRoot order := by
  obtain ⟨hroot, hback, -⟩ := graphWithin_pointsBack h
  exact ⟨hroot, hback, hback.order?_sorted hroot⟩

/-- Two nodes between a common source and a common consumer. -/
def Sample.diamond : Request :=
  request
    [definition "mix" "float" [input "a" "float", input "b" "float"],
      implementation "mix" "\x7b\x7ba\x7d\x7d + \x7b\x7bb\x7d\x7d",
      node "mix" "top" "float" [link "a" "left", link "b" "right"],
      node "mix" "left" "float" [link "a" "base"], node "mix" "right" "float" [link "a" "base"],
      node "mix" "base" "float" []]

/-- The common source is built once and listed first. -/
theorem graphWithin_order_diamond : ∃ g, build Sample.diamond "top" = .ok g ∧
    (g.nodes.map (·.name) = ["base", "left", "right", "top"] ∧ g.order? = some [0, 1, 2, 3]) ∧
    g.root < g.nodes.length ∧ g.PointsBack ∧
      ∃ order, g.order? = some order ∧ g.SortedFromRoot order := by
  have heval : (build Sample.diamond "top").toOption.map
      (fun g => (g.nodes.map (·.name), g.order?)) =
      some (["base", "left", "right", "top"], some [0, 1, 2, 3]) := by decide +kernel
  obtain ⟨g, hg, hview⟩ := Sample.exists_ok_of_map heval
  exact ⟨g, hg, Prod.mk.inj hview, graphWithin_order hg⟩

end MaterialViewer.Graph
