import LinkedDocs.Proofs.Manager.Differences
import Mathlib.Data.List.DropRight

/-!
# Notifications on the wire

Readers of notifications see two texts, a topic and a payload. Both are joined from names that
clients choose, and a name that holds the joint is taken for two (`shared_on_wire`): a slash in the
name of a collection, a comma in the name of a field, an at sign in front of a field, or a field
named like a sign.

Names without them are told apart:

> `eq_of_wire_eq`: two notifications with plain names and the same texts are about the same document
> and say the same of it.

A topic is cut at its first slash and a payload at all its commas, so ids may hold slashes. Of the
names in a payload, those at the end that begin with an at sign are the links. These readings are
the only ones possible in general, as each text has one of them (`exists_plain`).
-/

namespace LinkedDocs

/-- What can be told of a document. -/
inductive Happening where
  | created
  | deleted
  | changed (change : Change)
  deriving DecidableEq

namespace Happening

/-- The notification that tells it, if it is anything. -/
def announced? (collection id : String) : Happening → Option Notification
  | .created => some ⟨collection, id, .created⟩
  | .deleted => some ⟨collection, id, .deleted⟩
  | .changed change => Notification.updated? collection id change

/-- The pieces that its payload is joined from. -/
def pieces : Happening → List String
  | .created => ["+"]
  | .deleted => ["-"]
  | .changed change => change.names

end Happening

/-- No name of the change can be misread: none is cut at a comma, the last field is not taken for a
link, and the whole is not taken for a sign. -/
structure Change.Plain (c : Change) : Prop where
  no_comma : ∀ name ∈ c.names, ',' ∉ name.toList
  no_at : ∀ name ∈ c.fields.getLast?, name.toList.head? ≠ some '@'
  no_sign : c.names ≠ ["+"] ∧ c.names ≠ ["-"]

/-- What is told cannot be misread. -/
def Happening.Plain : Happening → Prop
  | .changed change => change.Plain
  | _ => True

namespace Notification

/-! ## Topics -/

/-- The collection is what comes before the first slash. -/
theorem takeWhile_topic {n : Notification} (plain : '/' ∉ n.collection.toList) :
    n.topic.toList.takeWhile (· ≠ '/') = n.collection.toList := by
  have hbefore : ∀ c ∈ n.collection.toList, decide (c ≠ '/') = true := fun c hc =>
    decide_eq_true fun heq => plain (heq ▸ hc)
  have hlist : n.topic.toList = n.collection.toList ++ '/' :: n.id.toList := by simp [topic]
  rw [hlist, List.takeWhile_append_of_pos hbefore, List.takeWhile_cons_of_neg (by simp),
    List.append_nil]

theorem eq_of_topic_eq {n n' : Notification} (plain : '/' ∉ n.collection.toList)
    (plain' : '/' ∉ n'.collection.toList) (h : n.topic = n'.topic) :
    n.collection = n'.collection ∧ n.id = n'.id := by
  have hcollection : n.collection = n'.collection := by
    rw [← String.toList_inj, ← takeWhile_topic plain, h, takeWhile_topic plain']
  refine ⟨hcollection, ?_⟩
  rw [topic, topic, hcollection] at h
  exact (String.append_right_inj _).mp h

end Notification

/-! ## Payloads -/

namespace Change

/-- Fields that look like links are not at the end of the fields. -/
theorem eq_nil_of_links {fields rest links more : List String}
    (no_at : ∀ name ∈ (fields ++ rest).getLast?, name.toList.head? ≠ some '@')
    (h : links.map ("@" ++ ·) = rest ++ more) : rest = [] := by
  by_contra hrest
  have hlast : (fields ++ rest).getLast? = some (rest.getLast hrest) := by
    rw [List.getLast?_append, List.getLast?_eq_some_getLast hrest, Option.some_or]
  have hmem : rest.getLast hrest ∈ links.map ("@" ++ ·) := by
    rw [h]
    exact List.mem_append_left _ (List.getLast_mem hrest)
  obtain ⟨link, -, hlink⟩ := List.mem_map.mp hmem
  exact no_at _ hlast (by rw [← hlink]; simp)

/-- Of the same names, those that begin with an at sign at the end are the links. -/
theorem eq_of_names_eq {c c' : Change} (plain : c.Plain) (plain' : c'.Plain)
    (h : c.names = c'.names) : c = c' := by
  have hsign : Function.Injective fun name : String => "@" ++ name := fun _ _ heq =>
    (String.append_right_inj _).mp heq
  have hlinks : c.fields = c'.fields → c.links = c'.links := by
    intro hfields
    rw [names, names, hfields] at h
    exact List.map_injective_iff.mpr hsign (List.append_cancel_left h)
  have hfields : c.fields = c'.fields := by
    rcases List.append_eq_append_iff.mp h with ⟨rest, hrest, hlinks⟩ | ⟨rest, hrest, hlinks⟩
    · rw [hrest, eq_nil_of_links (hrest ▸ plain'.no_at) hlinks, List.append_nil]
    · rw [hrest, eq_nil_of_links (hrest ▸ plain.no_at) hlinks, List.append_nil]
  obtain ⟨fields, links⟩ := c
  obtain ⟨fields', links'⟩ := c'
  obtain rfl : fields = fields' := hfields
  exact congrArg (Change.mk fields) (hlinks rfl)

end Change

namespace Happening

/-- Names are cut apart at the commas between them. -/
theorem splitOn_intercalate_names {names : List String} (some_name : names ≠ [])
    (plain : ∀ name ∈ names, ',' ∉ name.toList) :
    (",".intercalate names).toList.splitOn ',' = names.map String.toList := by
  rw [String.toList_intercalate]
  refine List.splitOn_intercalate ',' (fun name hname => ?_) (by simpa using some_name)
  obtain ⟨text, htext, rfl⟩ := List.mem_map.mp hname
  exact plain text htext

variable {collection collection' id id' : String} {h h' : Happening} {n n' : Notification}

/-- What is announced is about the document, and its payload is joined from the pieces. -/
theorem of_announced (announced : h.announced? collection id = some n) :
    n.collection = collection ∧ n.id = id ∧ n.payload = ",".intercalate h.pieces ∧
      h.pieces ≠ [] := by
  cases h with
  | created | deleted =>
    cases announced
    exact ⟨rfl, rfl, rfl, by simp [pieces]⟩
  | changed change =>
    simp only [announced?, Notification.updated?, Option.ite_none_left_eq_some, Option.some.injEq,
      Bool.not_eq_true] at announced
    obtain ⟨hsome, rfl⟩ := announced
    exact ⟨rfl, rfl, rfl, Change.names_ne_nil hsome⟩

theorem no_comma (plain : h.Plain) : ∀ piece ∈ h.pieces, ',' ∉ piece.toList := by
  cases h with
  | created | deleted => decide
  | changed change => exact Change.Plain.no_comma plain

theorem eq_of_pieces_eq (plain : h.Plain) (plain' : h'.Plain) (heq : h.pieces = h'.pieces) :
    h = h' := by
  cases h with
  | created =>
    cases h' with
    | created => rfl
    | deleted => exact absurd heq (by decide)
    | changed change => exact absurd heq.symm plain'.no_sign.1
  | deleted =>
    cases h' with
    | created => exact absurd heq (by decide)
    | deleted => rfl
    | changed change => exact absurd heq.symm plain'.no_sign.2
  | changed change =>
    cases h' with
    | created => exact absurd heq plain.no_sign.1
    | deleted => exact absurd heq plain.no_sign.2
    | changed change' => exact congrArg changed (Change.eq_of_names_eq plain plain' heq)

theorem eq_of_payload_eq (plain : h.Plain) (plain' : h'.Plain)
    (announced : h.announced? collection id = some n)
    (announced' : h'.announced? collection' id' = some n') (heq : n.payload = n'.payload) :
    h = h' := by
  obtain ⟨-, -, hpayload, hsome⟩ := of_announced announced
  obtain ⟨-, -, hpayload', hsome'⟩ := of_announced announced'
  refine eq_of_pieces_eq plain plain' ?_
  have hcut : h.pieces.map String.toList = h'.pieces.map String.toList := by
    rw [← splitOn_intercalate_names hsome (no_comma plain), ← hpayload, heq, hpayload',
      splitOn_intercalate_names hsome' (no_comma plain')]
  exact List.map_injective_iff.mpr (fun _ _ => String.toList_inj.mp) hcut

end Happening

/-! ## Both together -/

namespace Notification

/-- **Notifications of collections without a slash in the name that have the same topic are about
the same document, and plain ones that have the same payload tell the same of it.** -/
theorem eq_of_wire_eq {collection collection' id id' : String} {h h' : Happening}
    {n n' : Notification} (announced : h.announced? collection id = some n)
    (announced' : h'.announced? collection' id' = some n') :
    ('/' ∉ collection.toList → '/' ∉ collection'.toList → n.topic = n'.topic →
      collection = collection' ∧ id = id') ∧
    (h.Plain → h'.Plain → n.payload = n'.payload → h = h') := by
  obtain ⟨rfl, rfl, -⟩ := Happening.of_announced announced
  obtain ⟨rfl, rfl, -⟩ := Happening.of_announced announced'
  exact ⟨eq_of_topic_eq, fun plain plain' => Happening.eq_of_payload_eq plain plain' announced
    announced'⟩

/-- What the wire shows of a machine that has got another size and another disk tells just that. -/
theorem eq_of_wire_eq_resized_machine :
    let old := Dict.ofList [("size", .number (.integer 1)), ("disk", .string "a")]
    let new := Dict.ofList [("size", .number (.integer 2)), ("disk", .string "b")]
    let told : Happening := .changed (Change.between old new ["disk"])
    let read : Happening := .changed ⟨["size"], ["disk"]⟩
    let n : Notification := ⟨"vm", "a/1", .updated ["size", "@disk"]⟩
    told.announced? "vm" "a/1" = some n ∧ read.announced? "vm" "a/1" = some n ∧
      '/' ∉ "vm".toList ∧ told.Plain ∧ read.Plain ∧ told = read := by
  intro old new told read n
  have announced : told.announced? "vm" "a/1" = some n := by decide +kernel
  have announced' : read.announced? "vm" "a/1" = some n := by decide +kernel
  have plain : told.Plain := ⟨by decide +kernel, by decide +kernel, by decide +kernel⟩
  have plain' : read.Plain := ⟨by decide, by decide, by decide⟩
  exact ⟨announced, announced', by decide, plain, plain',
    (eq_of_wire_eq announced announced').2 plain plain' rfl⟩

/-- **Names that are not plain are mistaken on the wire: a slash in the name of a collection, a
comma in the name of a field, an at sign in front of it, and a field named like a sign.** -/
theorem shared_on_wire :
    let shown (told : String × String × Happening) : Option (String × String) :=
      (told.2.2.announced? told.1 told.2.1).map fun n => (n.topic, n.payload)
    ∀ told ∈ [(("a/b", "c", Happening.created), ("a", "b/c", Happening.created)),
        (("vm", "1", .changed ⟨["a,b"], []⟩), ("vm", "1", .changed ⟨["a", "b"], []⟩)),
        (("vm", "1", .changed ⟨["@a"], []⟩), ("vm", "1", .changed ⟨[], ["a"]⟩)),
        (("vm", "1", .changed ⟨["+"], []⟩), ("vm", "1", .created))],
      told.1 ≠ told.2 ∧ (shown told.1).isSome ∧ shown told.1 = shown told.2 := by
  decide +kernel

end Notification

/-! ## Every text can be read -/

/-- A text is cut at its commas. -/
theorem exists_names (text : List Char) : ∃ names : List (List Char), names ≠ [] ∧
    (∀ name ∈ names, ',' ∉ name) ∧ [','].intercalate names = text := by
  induction text with
  | nil => exact ⟨[[]], by simp⟩
  | cons c text ih =>
    obtain ⟨names, hsome, hplain, htext⟩ := ih
    by_cases hc : c = ','
    · subst hc
      obtain ⟨name, names, rfl⟩ := List.exists_cons_of_ne_nil hsome
      refine ⟨[] :: name :: names, by simp, by simpa using hplain, ?_⟩
      rw [List.intercalate_cons_cons, htext]
      rfl
    · obtain ⟨name, names, rfl⟩ := List.exists_cons_of_ne_nil hsome
      refine ⟨(c :: name) :: names, by simp, ?_, ?_⟩
      · simpa [Ne.symm hc] using hplain
      · cases names with
        | nil => simpa using htext
        | cons next names =>
          rw [List.intercalate_cons_cons] at htext ⊢
          rw [← htext]
          rfl

/-- Names are the fields and links of a change of which the last field does not look like a link. -/
theorem exists_change (names : List String) : ∃ c : Change, c.names = names ∧
    ∀ name ∈ c.fields.getLast?, name.toList.head? ≠ some '@' := by
  let isLink (name : String) : Bool := name.toList.head? == some '@'
  refine ⟨⟨names.rdropWhile isLink,
    (names.rtakeWhile isLink).map fun name => String.ofList name.toList.tail⟩, ?_, ?_⟩
  · have hlinks : (names.rtakeWhile isLink).map
        ((fun link => "@" ++ link) ∘ fun name => String.ofList name.toList.tail)
          = names.rtakeWhile isLink := by
      refine (List.map_congr_left fun name hname => ?_).trans (List.map_id _)
      have hhead : name.toList.head? = some '@' := by
        simpa [isLink] using List.mem_rtakeWhile_imp hname
      rw [← String.toList_inj]
      simpa using List.cons_head?_tail hhead
    rw [Change.names, List.map_map, hlinks]
    exact List.rdropWhile_append_rtakeWhile
  · intro name hname
    obtain ⟨hsome, rfl⟩ := List.mem_getLast?_eq_getLast hname
    have hlast := List.rdropWhile_last_not isLink names hsome
    simpa [isLink] using hlast

namespace Happening

/-- Every text is the payload of something plain. -/
theorem exists_plain (text : String) : ∃ h : Happening, h.Plain ∧
    ∀ collection id, ∃ n, h.announced? collection id = some n ∧ n.payload = text := by
  by_cases hplus : text = "+"
  · exact ⟨.created, trivial, fun collection id => ⟨_, rfl, hplus.symm⟩⟩
  by_cases hminus : text = "-"
  · exact ⟨.deleted, trivial, fun collection id => ⟨_, rfl, hminus.symm⟩⟩
  obtain ⟨lists, hsome, hplain, hjoined⟩ := exists_names text.toList
  obtain ⟨c, hnames, hend⟩ := exists_change (lists.map String.ofList)
  have hpayload : ",".intercalate c.names = text := by
    have hlists : (lists.map String.ofList).map String.toList = lists := by
      rw [List.map_map]
      exact (List.map_congr_left fun name _ => String.toList_ofList).trans (List.map_id _)
    rw [← String.toList_inj, String.toList_intercalate, hnames, hlists]
    exact hjoined
  have hcommas : ∀ name ∈ c.names, ',' ∉ name.toList := by
    intro name hname
    rw [hnames] at hname
    obtain ⟨list, hlist, rfl⟩ := List.mem_map.mp hname
    simpa using hplain list hlist
  have hchange : c.isEmpty = false := by
    obtain ⟨name, hname⟩ := List.exists_mem_of_ne_nil c.names (by simpa [hnames] using hsome)
    obtain ⟨field, hfield, -⟩ := Change.has_of_mem_names hname
    exact Change.isEmpty_eq_false_of_has hfield
  refine ⟨.changed c, ⟨hcommas, hend, ?_, ?_⟩, fun collection id =>
    ⟨⟨collection, id, .updated c.names⟩, ?_, hpayload⟩⟩
  · exact fun hsign => hplus (by rw [← hpayload, hsign]; rfl)
  · exact fun hsign => hminus (by rw [← hpayload, hsign]; rfl)
  · simp [announced?, Notification.updated?, hchange]

end Happening

/-- **Whatever a notification shows on the wire, something plain shows the same.** So no condition
on the names can be dropped without two readings of one text. -/
theorem Notification.exists_plain (n : Notification) : ∃ collection id h n',
    Happening.announced? collection id h = some n' ∧ '/' ∉ collection.toList ∧ h.Plain ∧
      n'.topic = n.topic ∧ n'.payload = n.payload := by
  obtain ⟨h, plain, hannounced⟩ := Happening.exists_plain n.payload
  have hslash : '/' ∈ n.topic.toList := by simp [topic]
  obtain ⟨before, after, htopic, hfirst⟩ := List.eq_append_cons_of_mem hslash
  obtain ⟨n', announced, hpayload⟩ := hannounced (String.ofList before) (String.ofList after)
  obtain ⟨hcollection, hid, -⟩ := Happening.of_announced announced
  refine ⟨_, _, h, n', announced, by simpa using hfirst, plain, ?_, hpayload⟩
  rw [← String.toList_inj, htopic, topic, hcollection, hid]
  simp

end LinkedDocs
