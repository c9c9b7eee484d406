import MaterialViewer.Proofs.Graph.Depth
import MaterialViewer.Proofs.Graph.MissingNodes

/-!
# Proofs: cycles of a document

The builder recognizes a cycle by the keys of the nodes in progress. If no name has an `>`, a key
that comes again on a way through the document is that of the same node in the place of the same
nodes, so an error because of a cycle means that there is one. And whatever there is on the way, the
walk terminates, if no node graph stands within itself.

Conversely a cycle that is reached has to fail the graph, and does if names are plain: a graph that
is built is a plain unfolding of its element, in which every node is shallower than those it is
reached from. If keys do not separate nodes, a node of the cycle may be taken for another one that
is built already, and a graph comes out.
-/

namespace MaterialViewer.Graph

open Relation

variable {r : Request} {path : String} {s t : Site} {tree : NodeTree}

/-- Some node that is reached leads back to itself, in the place of the same nodes. -/
def Circular (r : Request) (path : String) : Prop :=
  ∃ s t, Reached r path s ∧ TransGen (Next r path) s t ∧ s.keyPrefix = t.keyPrefix ∧
    s.path = t.path

/-! ## Errors that cycles explain -/

/-- An error is no lack of depth, and if it is a cycle, there is one. -/
def Explained (r : Request) (path : String) (e : GenerationError) : Prop :=
  e ≠ .endlessNesting ∧ ∀ p, e = .cycle p → Circular r path

/-- On a way a key comes again only with the same node. -/
theorem eq_of_key_eq (hangle : '>' ∉ s.path.toList) (hway : TransGen (Next r path) s t)
    (hkey : s.key = t.key) : s.keyPrefix = t.keyPrefix ∧ s.path = t.path := by
  have haround := around_of_transGen hway
  rcases Nat.lt_or_eq_of_le haround.within.length_le with hlt | heq
  · obtain ⟨rest, hlonger⟩ := haround.longer hlt
    refine absurd ?_ hangle
    rw [Site.key, Site.key, hlonger, String.append_assoc, String.append_right_inj] at hkey
    rw [hkey]
    simp
  · have hbegin := haround.keyPrefix heq
    rw [Site.key, Site.key, hbegin, String.append_right_inj] at hkey
    exact ⟨hbegin, hkey⟩

theorem foreseen_explained (hnames : ∀ e ∈ r.document.root.preorder, '>' ∉ e.name.toList) :
    Foreseen r path (Explained r path) where
  missing s _ _ := ⟨nofun, nofun⟩
  cycle s t hs hpresent hway hkey := by
    refine ⟨nofun, fun _ _ => ?_⟩
    obtain ⟨e, helement⟩ := Option.isSome_iff_exists.mp hpresent
    have hangle := Document.not_mem_of_element? helement (by decide) hnames
    exact ⟨s, t, hs, hway, eq_of_key_eq hangle hway hkey⟩

/-- What stands for nothing that can be drawn is an error of its own. -/
theorem buildRoot_of_no_start {walk : Walk} (hstart : start? r.document path = none) :
    ∃ e, buildRoot r walk path {} = .error e ∧ Explained r path e := by
  unfold buildRoot
  cases helement : r.document.element? path with
  | none => exact ⟨_, rfl, by simp [Explained]⟩
  | some e =>
    simp only [start?, helement, Option.bind_some] at hstart
    simp only
    split at hstart
    · rename_i hcategory
      rw [if_pos hcategory, Option.map_eq_none_iff.mp hstart]
      exact ⟨_, rfl, by simp [Explained]⟩
    · rename_i href
      rw [if_neg href]
      split at hstart
      · rename_i houtput
        rw [if_pos houtput]
        cases hgraph : (r.document.element? (Document.splitPath path).1).filter
            (·.category = "nodegraph") with
        | none => exact ⟨_, rfl, by simp [Explained]⟩
        | some graph =>
          rw [hgraph, Option.bind_some] at hstart
          rw [Option.map_eq_none_iff.mp hstart]
          exact ⟨_, rfl, by simp [Explained]⟩
      · cases hstart

theorem buildWithin_explained {depth : Nat} {e : GenerationError}
    (hnames : ∀ e ∈ r.document.root.preorder, '>' ∉ e.name.toList)
    (hnested : ∀ s, Reached r path s → s.within.Nodup) (hdepth : depthBound r.document ≤ depth)
    (h : buildWithin r depth path = .error e) : Explained r path e := by
  have hends : Ends (Explained r path) (buildRoot r (buildNode r depth) path) {}
      fun _ _ => True := by
    cases hstart : start? r.document path with
    | none => exact .inr (buildRoot_of_no_start hstart)
    | some start =>
      exact buildRoot_ends (foreseen_explained hnames) hnested hdepth hstart
        (.inr fun _ _ => ⟨nofun, nofun⟩)
  rcases hends with ⟨root, b, hok, -⟩ | ⟨e', herror, he'⟩
  · cases hok.symm.trans h
  · exact Except.error.inj (herror.symm.trans h) ▸ he'

/-! ## Cycles that are errors -/

section Unfolding

variable {depth : Nat} (hnames : PlainNames r.document path)
  (hroot : elementTree? r depth path = some tree)

include hnames hroot

/-- From one site the walk goes on to sites whose trees are found at a smaller depth. -/
theorem Next.exists_place {p : Place} {n : Nat} (hnext : Next r path s t)
    (hp : Asked r path (.place p)) (hplace : s.IsPlace p) (hn : (placeTree? r n p).isSome) :
    ∃ q m, m < n ∧ Asked r path (.place q) ∧ t.IsPlace q ∧ (placeTree? r m q).isSome := by
  obtain ⟨j, hjob, htarget⟩ := hnext
  obtain ⟨own', hown'⟩ := Option.isSome_iff_exists.mp hn
  cases n with
  | zero => cases hown'
  | succ m =>
    obtain ⟨e, helement, hown'⟩ := Option.bind_eq_some_iff.mp hown'
    suffices hplan : ∃ plan tree, Planned r path plan ∧ j.IsPlan plan ∧
        plan.tree? r (placeTree? r m) = some tree by
      obtain ⟨plan, plantree, hplan, hj, hfound⟩ := hplan
      obtain ⟨q, hq, hplace', hfound'⟩ := hj.exists_place hplan hfound htarget
      exact ⟨q, m, Nat.lt_succ_self m, hq, hplace', hfound'⟩
    -- the node at the site and the conversion after it are planned for the tree of the site
    cases hjob with
    | node hs helement' hdef =>
      obtain rfl := Option.some.inj (helement.symm.trans (hplace.path_eq ▸ helement'))
      simp only [hdef] at hown'
      obtain ⟨own, hown, -⟩ := Option.bind_eq_some_iff.mp hown'
      exact ⟨_, own, .node hp helement hdef, hplace.node, hown⟩
    | conversion hs helement' hdef hyields hconversion =>
      obtain rfl := Option.some.inj (helement.symm.trans (hplace.path_eq ▸ helement'))
      simp only [hdef] at hown'
      obtain ⟨own, hown, hconverted⟩ := Option.bind_eq_some_iff.mp hown'
      have hsig := hyields.eq_signature hnames hroot (.node hp helement hdef) hplace.node ⟨m, hown⟩
      have hplan := conversionPlan?_eq_some p hsig hconversion
      simp only [convertedTree?, hplan] at hconverted
      exact ⟨_, own', .conversion hp helement hdef hown hplan, hsig ▸ hplace.conversion own,
        hconverted⟩

theorem exists_place_of_transGen {p : Place} {n : Nat} (hway : TransGen (Next r path) s t)
    (hp : Asked r path (.place p)) (hplace : s.IsPlace p) (hn : (placeTree? r n p).isSome) :
    ∃ q m, m < n ∧ Asked r path (.place q) ∧ t.IsPlace q ∧ (placeTree? r m q).isSome := by
  induction hway with
  | single hnext => exact hnext.exists_place hnames hroot hp hplace hn
  | tail _ hnext ih =>
    obtain ⟨q, m, hm, hq, hplace', hfound⟩ := ih
    obtain ⟨q', m', hm', hq', hplace'', hfound'⟩ :=
      hnext.exists_place hnames hroot hq hplace' hfound
    exact ⟨q', m', Nat.lt_trans hm' hm, hq', hplace'', hfound'⟩

/-- What unfolds has no cycle: the tree of a node would be found at ever smaller depths. -/
theorem not_circular : ¬ Circular r path := by
  rintro ⟨s, t, hs, hway, hbegin, hpath⟩
  obtain ⟨p, hp, hplace⟩ := hs.exists_place hnames hroot
  have hkey : s.key = t.key := by rw [Site.key, Site.key, hbegin, hpath]
  -- the way comes back to the place, so its tree would be found at a smaller depth as well
  have hsmaller (n : Nat) : ¬ (placeTree? r n p).isSome := by
    induction n using Nat.strongRecOn with
    | ind n ih =>
      intro hn
      obtain ⟨q, m, hm, hq, hplace', hfound⟩ :=
        exists_place_of_transGen hnames hroot hway hp hplace hn
      obtain rfl := place_eq hnames hp hq (hplace.key_eq.symm.trans (hkey.trans hplace'.key_eq))
      exact ih m hm hfound
  obtain ⟨_, n, hn⟩ := hp.unfolds hroot p rfl
  exact hsmaller n (Option.isSome_of_eq_some hn)

end Unfolding

/-- A document without `>` in its names, in which no node graph stands within itself. The walk for
an element terminates: its result is no lack of depth, and no greater depth changes it. If no node
leads back to itself, the result is not an error because of a cycle. And if some node does, the
result is an error, provided that names are plain, so that keys separate nodes. -/
theorem build_cycles (hangle : ∀ e ∈ r.document.root.preorder, '>' ∉ e.name.toList)
    (hnested : ∀ s, Reached r path s → s.within.Nodup) :
    (build r path ≠ .error .endlessNesting ∧
      ∀ depth ≥ depthBound r.document, graphWithin r depth path = build r path) ∧
    (¬ Circular r path → ∀ p, build r path ≠ .error (.cycle p)) ∧
    (PlainNames r.document path → Circular r path → ∃ e, build r path = .error e) := by
  have herror (e : GenerationError) (h : build r path = .error e) : Explained r path e := by
    refine buildWithin_explained hangle hnested (Nat.le_refl _) ?_
    cases hbuild : buildWithin r (depthBound r.document) path with
    | error e' => rw [build, graphWithin, hbuild] at h; exact congrArg _ (Except.error.inj h)
    | ok result => rw [build, graphWithin, hbuild] at h; cases h
  refine ⟨⟨fun h => (herror _ h).1 rfl, fun depth hdepth => ?_⟩, fun hfree p h => ?_, ?_⟩
  · refine graphWithin_eq hdepth fun h => ?_
    exact (buildWithin_explained hangle hnested (Nat.le_refl _) h).1 rfl
  · exact hfree ((herror _ h).2 p rfl)
  · intro hnames hcircular
    cases hbuild : build r path with
    | error e => exact ⟨e, rfl⟩
    | ok g =>
      obtain ⟨tree, n, htree⟩ := unfolds_of_plainNames hnames hbuild
      exact absurd hcircular (not_circular hnames (htree n (Nat.le_refl n)).1)

/-- A node that reads texture coordinates and a node with a given name that refers to itself. -/
def Sample.ring (name : String) : Request := request [
  definition "mix" "vector2" [input "uv" "vector2" [("defaultgeomprop", "UV0")],
    input "a" "vector2"],
  implementation "mix" "\x7b\x7buv\x7d\x7d + \x7b\x7ba\x7d\x7d",
  node "mix" "top" "vector2" [input "a" "vector2" [("nodename", name)]],
  node "mix" name "vector2" [input "a" "vector2" [("nodename", name)]]]

/-- The node that refers to itself leads back to itself. -/
theorem Sample.circular_ring {name : String}
    (htop : (⟨[], "", "", name⟩ : Site) ∈ Site.targets (ring name) ⟨[], "", "", "top"⟩)
    (hself : (⟨[], "", "", name⟩ : Site) ∈ Site.targets (ring name) ⟨[], "", "", name⟩) :
    Circular (ring name) "top" := by
  have hstart : Reached (ring name) "top" (.ofPlace ⟨{}, "top"⟩) := .start rfl
  obtain ⟨j, hjob, htarget⟩ := Next.of_mem_targets hstart htop
  have hreached : Reached (ring name) "top" ⟨[], "", "", name⟩ := .target hjob htarget
  exact ⟨_, _, hreached, .single (.of_mem_targets hreached hself), rfl, rfl⟩

/-- The name `loop` is plain, so the cycle is an error. -/
theorem build_cycles_loop : (∃ e, build (Sample.ring "loop") "top" = .error e) ∧
    ∀ depth ≥ depthBound (Sample.ring "loop").document,
      graphWithin (Sample.ring "loop") depth "top" = build (Sample.ring "loop") "top" := by
  have hangle : ∀ e ∈ (Sample.ring "loop").document.root.preorder, '>' ∉ e.name.toList := by
    decide +kernel
  have hnested : ∀ s, Reached (Sample.ring "loop") "top" s → s.within.Nodup :=
    fun s hs => hs.within_eq_nil rfl ▸ .nil
  have hnames : PlainNames (Sample.ring "loop").document "top" := by
    refine ⟨?_, ?_, ?_, ?_, ?_, ?_, ?_⟩ <;> decide +kernel
  have hcircular : Circular (Sample.ring "loop") "top" :=
    Sample.circular_ring (by decide +kernel) (by decide +kernel)
  obtain ⟨⟨-, hdepth⟩, -, hcycle⟩ := build_cycles hangle hnested
  exact ⟨hcycle hnames hcircular, hdepth⟩

/-- A node with the key of the texture coordinates is taken for them, and its cycle is not seen. -/
theorem build_hidden_cycle :
    (∀ e ∈ (Sample.ring "geomprop:UV0").document.root.preorder,
      '/' ∉ e.name.toList ∧ '>' ∉ e.name.toList) ∧
    (∀ s, Reached (Sample.ring "geomprop:UV0") "top" s → s.within.Nodup) ∧
    Circular (Sample.ring "geomprop:UV0") "top" ∧
    ∃ g, build (Sample.ring "geomprop:UV0") "top" = .ok g := by
  have heval : (build (Sample.ring "geomprop:UV0") "top").toOption.map (·.root) = some 1 := by
    decide +kernel
  obtain ⟨g, hbuild, -⟩ := Sample.exists_ok_of_map heval
  refine ⟨by decide +kernel, fun s hs => hs.within_eq_nil rfl ▸ .nil, ?_, g, hbuild⟩
  exact Sample.circular_ring (by decide +kernel) (by decide +kernel)

end MaterialViewer.Graph
