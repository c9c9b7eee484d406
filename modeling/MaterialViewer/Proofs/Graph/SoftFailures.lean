import MaterialViewer.Proofs.Graph.Outcomes
import MaterialViewer.Proofs.Graph.Sample

/-!
# Proofs: faults that do not fail a graph

If what is drawn can be resolved, and nothing that follows from it runs in a circle, a graph is
built: every other fault of the document ends in a fallback.

The builder does fail on one more fault. It asks whether a node exists before it follows a reference
to it, but not if the node stands behind the output of a node graph. And it recognizes a cycle by
keys, so it takes a way past two sites with one key for a cycle.
-/

namespace MaterialViewer.Graph

variable {r : Request} {path : String}

/-- If what is drawn can be resolved and nothing is in the way, no error is foreseen. -/
theorem Unobstructed.foreseen (hfree : Unobstructed r path) (hdrawable : Drawable r path) :
    Foreseen r path fun _ => False where
  missing s hs hnone := by
    have hsome := hs.isSome hdrawable.root hfree
    rw [hnone] at hsome
    cases hsome
  cycle s t hs _ hway hkey := by
    obtain rfl := hfree.separate s t hs hway hkey
    exact hdrawable.acyclic s hs hway

theorem exists_buildWithin (hdrawable : Drawable r path) (hfree : Unobstructed r path) :
    ∃ root b, buildWithin r (depthBound r.document) path = .ok (root, b) := by
  have hstart : ∃ start, start? r.document path = some start := by
    cases hdrawable.root with
    | plan hstart _ => exact ⟨_, hstart⟩
    | place hstart _ => exact ⟨_, hstart⟩
  obtain ⟨start, hstart⟩ := hstart
  rcases buildRoot_ends (hfree.foreseen hdrawable) hdrawable.nested (Nat.le_refl _) hstart
    (.inl hdrawable.root) with ⟨root, b, hbuild, -⟩ | ⟨_, _, hfalse⟩
  · exact ⟨root, b, hbuild⟩
  · exact hfalse.elim

/-- If what is drawn resolves and nothing that follows from it runs in a circle, a graph is built,
whatever else is wrong with the document. -/
theorem build_isOk (hdrawable : Drawable r path) (hfree : Unobstructed r path) :
    ∃ g, build r path = .ok g := by
  obtain ⟨root, b, hbuild⟩ := exists_buildWithin hdrawable hfree
  exact ⟨b.graph path root, map_ok.mpr ⟨(root, b), hbuild, rfl⟩⟩

/-- A node with a fault in each of its inputs: references to a node without a definition, a node
without an implementation, no node, no node graph and no interface, and a value that is none. -/
def Sample.faulty : Request := request [
  definition "mix" "float" (["a", "b", "c", "d", "e", "f"].map (input · "float")),
  implementation "mix" "\x7b\x7ba\x7d\x7d",
  definition "tone" "float" [],
  node "mix" "top" "float" [
    link "a" "label",
    link "b" "tone",
    link "c" "missing",
    input "d" "float" [("nodegraph", "missing"), ("output", "out")],
    input "e" "float" [("interfacename", "base")],
    input "f" "float" [("value", "half")]],
  node "note" "label" "string" [],
  node "tone" "tone" "float" []]

/-- The sites that are reached in the document with faulty inputs. -/
def Sample.faultySites : List Site :=
  ["top", "label", "tone"].map fun name => { graph := "", name }

theorem Sample.listed_faulty : Listed faulty "top" faultySites :=
  ⟨by decide +kernel, ⟨⟨{}, "top"⟩, rfl, by decide⟩, by decide +kernel⟩

theorem build_isOk_faulty : Drawable Sample.faulty "top" ∧ Unobstructed Sample.faulty "top" ∧
    ∃ g, build Sample.faulty "top" = .ok g := by
  have hdrawable : Drawable Sample.faulty "top" :=
    Sample.listed_faulty.drawable
      (.place rfl ⟨_, _, rfl, rfl, .of_code rfl⟩) (by decide)
  have hfree : Unobstructed Sample.faulty "top" :=
    Sample.listed_faulty.unobstructed (by decide +kernel) (by decide +kernel)
  exact ⟨hdrawable, hfree, build_isOk hdrawable hfree⟩

/-- A node connected to an output of a node graph behind which there is no node. -/
def Sample.dangling : Request := request [
  definition "mix" "float" [input "a" "float"],
  implementation "mix" "\x7b\x7ba\x7d\x7d",
  { category := "nodegraph", name := "ng"
    children := [{ category := "output", name := "out"
                   attributes := [("type", "float"), ("nodename", "missing")] }] },
  node "mix" "top" "float" [input "a" "float" [("nodegraph", "ng"), ("output", "out")]]]

theorem Sample.listed_dangling : Listed dangling "top"
    [{ graph := "", name := "top" }, { graph := "ng", name := "missing" }] :=
  ⟨by decide +kernel, ⟨⟨{}, "top"⟩, rfl, by decide⟩, by decide +kernel⟩

/-- The missing node behind an output fails the whole graph. -/
theorem not_build_dangling : Drawable Sample.dangling "top" ∧
    build Sample.dangling "top" = .error (.noElement "ng/missing") := by
  refine ⟨Sample.listed_dangling.drawable ?_ (by decide), ?_⟩
  · exact .place rfl ⟨_, _, rfl, rfl, .of_code rfl⟩
  · decide +kernel

/-- A node `tone` in whose place a node graph stands. The node in it has the same key as the node of
the other graph, which is met on the way. -/
def Sample.circle : Request := request [
  definition "mix" "float" [input "a" "float"],
  implementation "mix" "\x7b\x7ba\x7d\x7d",
  definition "tone" "float" [],
  { category := "nodegraph", name := "NG"
    attributes := [("nodedef", "ND_tone")]
    children := [node "mix" "n" "float" [], { category := "output", name := "out"
                                              attributes := [("nodename", "n")] }] },
  { category := "nodegraph", name := "tone>NG"
    children := [node "mix" "n" "float" [link "a" "tone"]] },
  node "mix" "top" "float" [link "a" "tone>NG/n"],
  node "tone" "tone" "float" []]

/-- Keys that are the same by accident are taken for a cycle. -/
example : Drawable Sample.circle "top" ∧
    build Sample.circle "top" = .error (.cycle "NG/n") := by
  have hlisted : Listed Sample.circle "top"
      [{ graph := "", name := "top" }, { graph := "", name := "tone>NG/n" },
        { graph := "", name := "tone" },
        { within := ["NG"], keyPrefix := "tone>", graph := "NG", name := "n" }] :=
    ⟨by decide +kernel, ⟨⟨{}, "top"⟩, rfl, by decide⟩, by decide +kernel⟩
  refine ⟨hlisted.drawable ?_ (by decide), ?_⟩
  · exact .place rfl ⟨_, _, rfl, rfl, .of_code rfl⟩
  · decide +kernel

end MaterialViewer.Graph
