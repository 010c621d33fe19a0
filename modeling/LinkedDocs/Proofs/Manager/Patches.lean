import LinkedDocs.Proofs.Manager.Announcements

/-!
# What is announced of a patch

A patch `Alters` a field if it mentions it and the document shows another value after it. These are
the names that its announcement is for. But a patch is compared with the document as if it were the
next version of it, and to this comparison a link that is not in the patch is a link that is gone
(`SeemsUnlinked`). The same goes for the id, where a collection has that name, since the patch is
compared without it.

> `has_ofPatch_iff`: what is named is what the patch alters, and each of those links.
> `perform_patch_exact`: so where there are none of them, the announcement is exact.

A document with links meets that condition only if the patch mentions all of them. Otherwise even a
patch that alters nothing is announced (`perform_patch_untouched_disk`).
-/

namespace LinkedDocs

open Memory (answer storedId)

/-- Putting the patch on the document changes the field. The patch has to mention it, and it is
neither the id nor bookkeeping. A field that is absent counts as `null`. -/
def Alters (document patch : Fields) (name : String) : Prop :=
  patch.contains name = true ∧ name ≠ idField ∧ isInternal name = false ∧
    ((document.get? name).getD .null).same ((Manager.patched patch document name).getD .null)
      = false

/-- The field is a link of the document and not in what the patch is taken for. -/
def SeemsUnlinked (document patch : Fields) (collections : List String) (name : String) : Prop :=
  (patch.contains name = false ∨ name = idField) ∧ isInternal name = false ∧
    name ∈ collections ∧ ∃ before, document.get? name = some before ∧ before.Refers

namespace Change

variable {document patch : Fields} {collections : List String} {name : String}

theorem mem_changedNames_effective_iff :
    name ∈ changedNames document (effective document patch) ↔ Alters document patch name := by
  rw [mem_changedNames_iff, get?_effective, Alters, Manager.patched]
  simp only [Dict.contains]
  by_cases hid : name = idField
  · simp [hid]
  cases hgiven : patch.get? name with
  | none => simp
  | some given =>
    by_cases hnull : given = .null
    · -- it takes the field out, if that is there
      subst hnull
      cases hbefore : document.get? name <;> simp [Option.filter, hid, differs, Value.isNull]
    · have hset : given.isNull = false := by cases given <;> simp_all [Value.isNull]
      have hnew : Value.null.same given = false := by
        rw [Value.same_comm, Value.same_null hnull]
      cases hbefore : document.get? name <;> simp [Option.filter, hid, differs, hset, hnew]

theorem unlinked_effective_iff :
    (name ∈ removedNames document (effective document patch) ∧
      isLink collections name (document.get? name) ((effective document patch).get? name) = true) ↔
      SeemsUnlinked document patch collections name := by
  rw [mem_removedNames_iff]
  constructor
  · rintro ⟨⟨hshown, hgone, before, hbefore⟩, hlink⟩
    rw [hgone, hbefore, isLink_of_gone] at hlink
    refine ⟨?_, hshown, hlink.1, before, hbefore, hlink.2⟩
    -- as the document has the field, the patch would be compared with it
    rw [get?_effective] at hgone
    by_contra hmentioned
    rw [not_or, Bool.not_eq_false, Dict.contains, Option.isSome_iff_exists] at hmentioned
    obtain ⟨⟨given, hgiven⟩, hid⟩ := hmentioned
    rw [hgiven] at hgone
    simp [Option.filter, hid, Dict.contains, hbefore] at hgone
  · rintro ⟨hunmentioned, hshown, hknown, before, hbefore, hrefers⟩
    have hgone : (effective document patch).get? name = none := by
      rw [get?_effective]
      rcases hunmentioned with hnone | hid
      · rw [Dict.contains, Option.isSome_eq_false_iff, Option.isNone_iff_eq_none] at hnone
        rw [hnone]
        rfl
      · simp [hid]
    rw [hgone, hbefore, isLink_of_gone]
    exact ⟨⟨hshown, rfl, before, rfl⟩, hknown, hrefers⟩

/-- What is named of a patch is what it alters, and the links that it seems to take off. -/
theorem has_ofPatch_iff : (ofPatch document patch collections).Has name ↔
    Alters document patch name ∨ SeemsUnlinked document patch collections name := by
  rw [ofPatch, has_between_iff, mem_changedNames_effective_iff, unlinked_effective_iff]

end Change

namespace Manager

variable {m m' : Memory} {collection id : String} {old : Fields} {members : List (String × Value)}
  {news : List Notification}

/-- Of a patch nothing is announced, or what it is compared to. If it succeeds without an
announcement, it is blank. -/
theorem PatchEnd.announces (distinct : m.Distinct) (before : m.Holds collection id old)
    {result : Except ManagerError Unit}
    (h : PatchEnd m m' collection id (.object members) result news) :
    news = (Notification.updated? collection id
        (Change.ofPatch (Entity.visible old) (Dict.ofList members) m.listing)).toList ∨
      news = [] ∧ (result = .ok () → members = []) := by
  cases h with
  | failed error same => exact .inr ⟨rfl, fun hok => nomatch hok⟩
  | idle fields checked blank same =>
    obtain ⟨_, hdata, rfl⟩ := patchOf_ok checked
    cases hdata
    exact .inr ⟨rfl, fun _ => (isEmpty_ofList_iff members).mp blank⟩
  | exchanged fields checked blank was next exchanged patches =>
    obtain ⟨_, hdata, rfl⟩ := patchOf_ok checked
    cases hdata
    obtain ⟨front, back, hdocuments, -⟩ := exchanged.place
    have hwas : was ∈ m.documents collection := by simp [hdocuments]
    rw [distinct.eq_of_storedId_eq before.1 hwas before.2 exchanged.id_old]
    exact .inl rfl

end Manager

namespace Service

/-- **Apart from links that it seems to take off, the comparison with a patch names a field if and
only if the patch alters it. A service that patches a document without such links announces all
that is altered if it succeeds, never anything else, and nothing at all of a patch that alters
nothing.** -/
theorem perform_patch_exact {m : Memory} (managed : m.Managed) (n : Nat) (fault : StoreError)
    {collection id : String} {old : Fields} (before : m.Holds collection id old)
    (members : List (String × Value)) (selectors : SelectorCache) {r : Recorder}
    (up : r.failing = false) :
    (∀ (document patch : Fields) (collections : List String) (name : String),
      ¬ SeemsUnlinked document patch collections name →
        ((Change.ofPatch document patch collections).Has name ↔ Alters document patch name)) ∧
    let start : Service (Nat × Memory) Recorder := ⟨(0, m), selectors, r⟩
    let ended := start.perform (answer.failingAt n fault) Recorder.sink
      (.patch collection id (.object members))
    let altered := Alters (Entity.visible old) (Dict.ofList members)
    (∀ name, ¬ SeemsUnlinked (Entity.visible old) (Dict.ofList members) m.listing name) →
      ∃ news, ended.2.sink.recorded = r.recorded ++ news ∧
        (∀ told ∈ news, ∃ names, told = ⟨collection, id, .updated names⟩ ∧ names ≠ [] ∧
          ∀ name ∈ names, ∃ field, altered field ∧ (name = field ∨ name = "@" ++ field)) ∧
        ((∀ field, ¬ altered field) → news = []) ∧
        (ended.1 = .ok () → ∀ field, altered field →
          ∃ names, news = [⟨collection, id, .updated names⟩] ∧
            (field ∈ names ∨ "@" ++ field ∈ names)) := by
  have exact_iff (document patch : Fields) (collections : List String) (name : String)
      (unseen : ¬ SeemsUnlinked document patch collections name) :
      (Change.ofPatch document patch collections).Has name ↔ Alters document patch name :=
    Change.has_ofPatch_iff.trans (or_iff_left unseen)
  refine ⟨exact_iff, ?_⟩
  intro start ended altered unseen
  let change := Change.ofPatch (Entity.visible old) (Dict.ofList members) m.listing
  have hnames (field : String) : change.Has field ↔ altered field :=
    exact_iff _ _ _ field (unseen field)
  have hended : ended = start.perform (answer.failingAt n fault) Recorder.sink
    (.patch collection id (.object members)) := rfl
  rw [perform_eq] at hended
  cases hlead : Write.lead (answer.failingAt n fault)
      (Operation.write (.patch collection id (.object members))) [] (0, m) with
  | mk led s' =>
    obtain ⟨result, news⟩ := led
    rw [hlead, Recorder.announce_eq up] at hended
    rw [hended]
    have sound := managed.sound
    obtain ⟨_, rfl, hends⟩ := Manager.patch_ends (Server.fronts_failingAt n fault) (s := (0, m))
      sound hlead
    refine ⟨_, rfl, ?_⟩
    rcases hends.announces sound.distinct before with rfl | ⟨rfl, hblank⟩
    · refine ⟨fun told htold => ?_, fun hnone => ?_, fun _ field hfield => ?_⟩
      · obtain ⟨names, hevent, hsome, hall⟩ := Notification.names_of_mem_updated? htold
        refine ⟨names, hevent, hsome, fun name hname => ?_⟩
        obtain ⟨field, hfield, hform⟩ := hall name hname
        exact ⟨field, (hnames field).mp hfield, hform⟩
      · have hempty : change.isEmpty = true :=
          Change.isEmpty_iff.mpr fun name hname => hnone name ((hnames name).mp hname)
        simp [Notification.updated?, change, hempty]
      · exact Announced.named_of_has ((hnames field).mpr hfield)
    · refine ⟨fun _ htold => absurd htold List.not_mem_nil, fun _ => rfl,
        fun hok field hfield => ?_⟩
      -- a blank patch mentions nothing
      have hmembers : members = [] := hblank hok
      subst hmembers
      cases hfield.1

/-- The machine with a disk as it is stored, with the revision that it got. -/
def linkedMachineFields : Fields :=
  Dict.ofList [("id", .string "1"), ("size", .number (.integer 1)), ("disk", .string "a"),
    ("_rev", .ofInt 2)]

theorem linkedMachine_holds : linkedMachine.Holds "vm" "1" linkedMachineFields := by
  have hstored : linkedMachine.documents "vm" = [linkedMachineFields] := by decide +kernel
  exact ⟨by simp [hstored], by decide +kernel⟩

/-- The machine gets another size, and the patch itself takes the disk off. Both are altered, and
nothing else is announced. -/
theorem perform_patch_exact_disk_taken_off :
    let members : List (String × Value) := [("size", .number (.integer 2)), ("disk", .null)]
    let document := Entity.visible linkedMachineFields
    let patch := Dict.ofList members
    let start : Service (Nat × Memory) Recorder := ⟨(0, linkedMachine), .ofCapacity 0, .empty⟩
    let ended := start.perform (answer.failingAt 0 Manager.injected) Recorder.sink
      (.patch "vm" "1" (.object members))
    linkedMachine.Managed ∧ ended.1 = .ok () ∧
      ((Change.ofPatch document patch ["disk", "vm"]).Has "disk" ↔ Alters document patch "disk") ∧
      ended.2.sink.recorded = [⟨"vm", "1", .updated ["size", "@disk"]⟩] ∧
      ∀ name ∈ ["size", "@disk"], ∃ field, Alters document patch field ∧
        (name = field ∨ name = "@" ++ field) := by
  intro members document patch start ended
  have managed : linkedMachine.Managed :=
    .seed _ _ (.seed _ _ .empty (by decide +kernel)) (by decide +kernel)
  have hlisting : linkedMachine.listing = ["disk", "vm"] := by decide +kernel
  have hok : ended.1 = .ok () := by decide +kernel
  have hrecorded : ended.2.sink.recorded = [⟨"vm", "1", .updated ["size", "@disk"]⟩] := by
    decide +kernel
  -- the patch mentions the disk, and the machine has no field that is named like the other one
  have unseen : ∀ name, ¬ SeemsUnlinked document patch ["disk", "vm"] name := by
    rintro name ⟨hunmentioned, -, hknown, before, hbefore, -⟩
    rcases List.mem_pair.mp hknown with rfl | rfl
    · exact absurd hunmentioned (by decide +kernel)
    · rw [show document.get? "vm" = none by decide +kernel] at hbefore
      cases hbefore
  obtain ⟨hnamed, hservice⟩ := perform_patch_exact managed 0 Manager.injected linkedMachine_holds
    members (.ofCapacity 0) (r := .empty) rfl
  obtain ⟨news, hnews, htold, -⟩ := hservice (hlisting ▸ unseen)
  have hlist : news = [⟨"vm", "1", .updated ["size", "@disk"]⟩] := hnews.symm.trans hrecorded
  obtain ⟨names, hevent, -, hnames⟩ :=
    htold ⟨"vm", "1", .updated ["size", "@disk"]⟩ (by simp [hlist])
  cases hevent
  exact ⟨managed, hok, hnamed document patch _ "disk" (unseen "disk"), hrecorded, hnames⟩

/-- A link that the patch does not mention is named with what it alters. And a patch that gives the
machine the size that it has alters nothing, and yet its disk is announced. -/
theorem perform_patch_untouched_disk :
    let document : Fields :=
      Dict.ofList [("id", .string "1"), ("name", .string "a"), ("disk", .string "x")]
    let patch : Fields := Dict.ofList [("name", .string "b")]
    let members : List (String × Value) := [("size", .number (.integer 1))]
    let start : Service Memory Recorder := ⟨linkedMachine, .ofCapacity 0, .empty⟩
    let ended := start.perform answer Recorder.sink (.patch "vm" "1" (.object members))
    ((Change.ofPatch document patch ["disk"]).names = ["name", "@disk"] ∧
        ¬ Alters document patch "disk") ∧
      linkedMachine.Holds "vm" "1" linkedMachineFields ∧
      (∀ field, ¬ Alters (Entity.visible linkedMachineFields) (Dict.ofList members) field) ∧
      ended.2.sink.recorded = [⟨"vm", "1", .updated ["@disk"]⟩] := by
  intro document patch members start ended
  refine ⟨⟨by decide +kernel, fun h => absurd h.1 (by decide +kernel)⟩, linkedMachine_holds, ?_,
    by decide +kernel⟩
  rintro field ⟨hmentioned, -, -, hother⟩
  by_cases hfield : field = "size"
  · subst hfield
    exact absurd hother (by decide +kernel)
  · have hnone : (Dict.ofList members).get? field = none := Dict.get?_set_of_ne .empty _ hfield
    rw [Dict.contains, hnone] at hmentioned
    cases hmentioned

end Service

end LinkedDocs
