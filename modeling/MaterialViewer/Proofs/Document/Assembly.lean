import MaterialViewer.Document.Reading

/-!
# Proofs: the steps of assembling a tree

What each event does to a tree under construction, as one relation with a case for each thing that
an event can do, and what reading a whole sequence of events comes down to.
-/

namespace MaterialViewer

namespace Markup

/-- An event that says nothing about the elements of a document. -/
def Event.IsSilent : Event → Prop
  | .text content => Text.isAllBlank content = true
  | .other => True
  | _ => False

/-- The tag of an event. -/
def Event.tag? : Event → Option Tag
  | .opening tag | .empty tag => some tag
  | _ => none

/-- The tags of a sequence of events, in order. -/
def tagsOf (events : List Event) : List Tag := events.filterMap Event.tag?

theorem Event.IsSilent.tag?_eq {event : Event} (h : event.IsSilent) : event.tag? = none := by
  cases event <;> first | rfl | cases h

end Markup

namespace Assembly

variable {a a' : Assembly} {event : Markup.Event} {events : List Markup.Event}

/-- Whether there is room for one more element: a tree has one root. -/
def HasRoom (a : Assembly) : Prop := a.opened = [] → a.root? = none

/-- What an event does to a tree under construction. -/
inductive Stepped (a : Assembly) : Markup.Event → Assembly → Prop
  | silent {event : Markup.Event} (h : event.IsSilent) : Stepped a event a
  | directive {tag : Markup.Tag} (h : tag.name = includeTag) :
    Stepped a (.empty tag)
      { a with includes := a.includes ++ ((Element.ofTag tag).filled? "href").toList }
  | leaf {tag : Markup.Tag} (h : tag.name ≠ includeTag) (hroom : a.HasRoom) :
    Stepped a (.empty tag) (a.close (Element.ofTag tag))
  | opens {tag : Markup.Tag} (hroom : a.HasRoom) :
    Stepped a (.opening tag) { a with opened := Element.ofTag tag :: a.opened }
  | closes {e : Element} {outer : List Element} (h : a.opened = e :: outer) :
    Stepped a .closing ({ a with opened := outer }.close e)

theorem hasRoom_iff : a.HasRoom ↔ ¬ (a.opened.isEmpty && a.root?.isSome) = true := by
  unfold HasRoom
  cases a.opened <;> cases a.root? <;> simp

theorem Stepped.step_eq (h : Stepped a event a') : a.step event = .ok a' := by
  cases h with
  | silent h =>
    cases event with
    | text content => exact if_pos h
    | other => rfl
    | _ => cases h
  | @directive tag h =>
    rw [step, if_pos h]
    cases (Element.ofTag tag).filled? "href" with
    | none => simp
    | some href => rfl
  | leaf h hroom => rw [step, if_neg h, if_neg (hasRoom_iff.mp hroom)]
  | opens hroom => rw [step, if_neg (hasRoom_iff.mp hroom)]
  | closes h => simp only [step, h]

theorem stepped_of_step (h : a.step event = .ok a') : Stepped a event a' := by
  cases event with
  | opening tag =>
    rw [step] at h
    split at h
    · cases h
    next hroom =>
      cases h
      exact .opens (hasRoom_iff.mpr hroom)
  | empty tag =>
    rw [step] at h
    split at h
    next htag =>
      have hstep := (Stepped.directive (a := a) htag).step_eq
      rw [step, if_pos htag, h] at hstep
      cases hstep
      exact .directive htag
    next htag =>
      split at h
      · cases h
      next hroom =>
        cases h
        exact .leaf htag (hasRoom_iff.mpr hroom)
  | closing =>
    rw [step] at h
    split at h
    · cases h
    next e outer hopened =>
      cases h
      exact .closes hopened
  | text content =>
    rw [step] at h
    split at h
    next hblank =>
      cases h
      exact .silent hblank
    · cases h
  | other =>
    cases h
    exact .silent trivial
  | broken error => cases h

theorem includes_close {e : Element} : (a.close e).includes = a.includes := by
  unfold close
  split <;> rfl

/-- While elements are open, the root is not closed. -/
def IsPending (a : Assembly) : Prop := a.opened ≠ [] → a.root? = none

theorem IsPending.close {e : Element} (ha : a.IsPending) : (a.close e).IsPending := by
  unfold Assembly.close
  split
  next parent outer hopened => exact fun _ => ha (by rw [hopened]; exact List.cons_ne_nil _ _)
  next hopened => exact fun hne => absurd hopened hne

theorem IsPending.step (ha : a.IsPending) (h : Stepped a event a') : a'.IsPending := by
  cases h with
  | silent _ => exact ha
  | directive _ => exact ha
  | leaf _ _ => exact ha.close
  | opens hroom =>
    intro _
    by_cases htop : a.opened = []
    · exact hroom htop
    · exact ha htop
  | closes hopened =>
    have hroot : a.root? = none := ha (by rw [hopened]; exact List.cons_ne_nil _ _)
    exact IsPending.close fun _ => hroot

/-! ## Runs -/

theorem run_cons_ok_iff : (event :: events).foldlM step a = .ok a' ↔
    ∃ b, Stepped a event b ∧ events.foldlM step b = .ok a' := by
  rw [List.foldlM_cons]
  cases hstep : a.step event with
  | error m =>
    refine ⟨fun h => (nomatch h), fun ⟨b, hb, _⟩ => ?_⟩
    rw [hb.step_eq] at hstep
    cases hstep
  | ok b =>
    refine ⟨fun h => ⟨b, stepped_of_step hstep, h⟩, fun ⟨c, hc, h⟩ => ?_⟩
    rw [hc.step_eq] at hstep
    cases hstep
    exact h

/-- What one step keeps, a run keeps, where each step may use what it has read so far. -/
theorem run_induction {P : List Markup.Event → Assembly → Prop}
    (hstep : ∀ {before b event b'}, P before b → Stepped b event b' → P (before ++ [event]) b')
    (before : List Markup.Event) (ha : P before a) (h : events.foldlM step a = .ok a') :
    P (before ++ events) a' := by
  induction events generalizing before a with
  | nil =>
    cases h
    rw [List.append_nil]
    exact ha
  | cons event events ih =>
    obtain ⟨b, hb, h⟩ := run_cons_ok_iff.mp h
    have hread := ih _ (hstep ha hb) h
    rw [List.append_assoc] at hread
    exact hread

end Assembly

/-- What reading a sequence of events comes down to. -/
theorem Element.ofEvents_ok_iff {events : List Markup.Event} {root : Element}
    {includes : List String} : Element.ofEvents events = .ok (root, includes) ↔
      events.foldlM Assembly.step {} = .ok { root? := some root, includes } ∧
      root.category = Document.rootCategory := by
  unfold Element.ofEvents
  cases events.foldlM Assembly.step {} with
  | error m => exact ⟨fun h => (nomatch h), fun h => (nomatch h.1)⟩
  | ok a =>
    obtain ⟨root?, opened, listed⟩ := a
    simp only [Except.bind, Assembly.finish]
    cases opened with
    | cons e outer => simp
    | nil =>
      cases root? with
      | none => simp
      | some found =>
        by_cases hroot : found.category = Document.rootCategory
        · simp only [List.isEmpty_nil, if_true, hroot, Except.ok.injEq, Prod.mk.injEq,
            Assembly.mk.injEq, Option.some.injEq]
          constructor
          · rintro ⟨rfl, rfl⟩
            exact ⟨⟨rfl, trivial, rfl⟩, hroot⟩
          · rintro ⟨⟨rfl, -, rfl⟩, -⟩
            exact ⟨rfl, rfl⟩
        · simp only [List.isEmpty_nil, if_true, hroot, if_false, Except.ok.injEq,
            Assembly.mk.injEq, Option.some.injEq]
          constructor
          · exact nofun
          · rintro ⟨⟨rfl, -, -⟩, h⟩
            exact absurd h hroot

end MaterialViewer
