import LinkedDocs.Proofs.Selector.Grammar
import LinkedDocs.Selector.Forms

/-!
# One selector in three forms

A selector that has been read from a text can be written in two ways: as its text
(`Selector.text`), without the white space that the original may have had, and as its JSON form
(`Selector.form`), where a reference is an object and a group an array. Both are read as the
selector that they were written from (`forms_agree`).

The printer and the two readers are three recursions that know nothing of each other. What ties them
is the derivation of the text that was read first:

> `derives_text`: whatever text a selector has been derived from, it is derived from its own text.
> `ofValueWith_form`: its JSON form is read as the selector.

Only a derivation tells that a name is an identifier and that lists stand in groups only, so neither
holds of every selector.
-/

namespace LinkedDocs.Selector

/-! ## The JSON form -/

mutual

/-- The JSON form of a selector. As in its text, the scope of a many reference is left out. -/
def form : Selector → Value
  | .wildcard => .string "*"
  | .field name => .string name
  | .one target sub => .object (("ref", .string target) :: selectMember sub)
  | .many target sub _ => .object (("many_ref", .string target) :: selectMember sub)
  | .list items => .array (itemForms items)

/-- The member for what stands below a reference; without anything there is none. -/
def selectMember : Option Selector → List (String × Value)
  | none => []
  | some sub => [("select", sub.form)]

/-- The JSON forms of several selectors. -/
def itemForms : List Selector → List Value
  | [] => []
  | item :: items => item.form :: itemForms items

end

/-! ## The text is derived -/

theorem blank_nil : Blank [] := fun _ h => absurd h List.not_mem_nil

/-- A derived selector is no list; those stand in groups only. -/
theorem Derives.ne_list {text : List Char} {selector : Selector} (h : Derives text selector)
    (items : List Selector) : selector ≠ .list items := by
  cases h <;> exact Selector.noConfusion

theorem subText_chain {selector : Selector} (h : ∀ items, selector ≠ .list items) :
    subText (some selector) = "." ++ selector.text := by
  cases selector with
  | list items => exact absurd rfl (h items)
  | wildcard | field | one | many => rfl

/-- White space before the first item belongs to the items. -/
theorem DerivesItems.blank_append {space text : List Char} {items : List Selector}
    (hspace : Blank space) (h : DerivesItems text items) : DerivesItems (space ++ text) items := by
  have hboth {before : List Char} (hbefore : Blank before) : Blank (space ++ before) :=
    fun c hc => (List.mem_append.mp hc).elim (hspace c) (hbefore c)
  cases h with
  | last hbefore hitem hafter =>
    rw [← List.append_assoc]
    exact .last (hboth hbefore) hitem hafter
  | more hbefore hitem hafter hrest =>
    rw [← List.append_assoc]
    exact .more (hboth hbefore) hitem hafter hrest

theorem DerivesItems.ne_nil {text : List Char} {items : List Selector}
    (h : DerivesItems text items) : items ≠ [] := by
  cases h <;> exact List.cons_ne_nil _ _

mutual

/-- A derived selector is derived from its text. -/
theorem derives_text {text : List Char} {selector : Selector} :
    Derives text selector → Derives selector.text.toList selector
  | .wildcard => .wildcard
  | @Derives.field name hname => by
    rw [Selector.text, String.toList_ofList]
    exact .field hname
  | @Derives.one target _ sub htarget htail => by
    have htext : (Selector.text (.one (String.ofList target) sub)).toList
        = '@' :: (target ++ (subText sub).toList) := by
      simp [Selector.text, sign]
    rw [htext]
    exact .one htarget (derivesTail_text htail)
  | @Derives.many target _ sub htarget htail => by
    have htext : (Selector.text (.many (String.ofList target) sub .unrestricted)).toList
        = '@' :: '[' :: (target ++ ']' :: (subText sub).toList) := by
      simp [Selector.text, sign]
    rw [htext]
    exact .many htarget (derivesTail_text htail)

theorem derivesTail_text {tail : List Char} {sub : Option Selector} :
    DerivesTail tail sub → DerivesTail (subText sub).toList sub
  | .nothing => .nothing
  | .chain _ hselector => by
    rw [subText_chain hselector.ne_list, String.toList_append]
    exact .chain blank_nil (derives_text hselector)
  | .group hitems => by
    rw [subText, String.toList_append, String.toList_append]
    exact .group (derivesItems_text hitems)

theorem derivesItems_text {text : List Char} {items : List Selector} :
    DerivesItems text items → DerivesItems ((itemsText items).toList ++ [')']) items
  | .last _ hitem _ => .last blank_nil (derives_text hitem) blank_nil
  | @DerivesItems.more _ _ _ item _ items _ hitem _ hrest => by
    -- the space after the comma goes to the items that follow
    have hspace : Blank [' '] := by
      intro c hc
      rw [List.mem_singleton.mp hc]
      decide
    have htext : (itemsText (item :: items)).toList ++ [')']
        = item.text.toList ++ ',' :: ([' '] ++ ((itemsText items).toList ++ [')'])) := by
      cases items with
      | nil => exact absurd rfl hrest.ne_nil
      | cons => simp [itemsText]
    rw [htext]
    exact .more blank_nil (derives_text hitem) blank_nil
      ((derivesItems_text hrest).blank_append hspace)

end

/-! ## The JSON form is read -/

theorem read_of_derives {text : List Char} {selector : Selector} (h : Derives text selector) :
    read (String.ofList text) = .ok selector := by
  rw [read_eq_ok_iff, String.toList_ofList]
  exact run_of_written ⟨[], text, [], by simp, blank_nil, h, blank_nil⟩

theorem readPlain_of_derives {text : List Char} {selector : Selector} (h : Derives text selector) :
    readPlain (String.ofList text) = pure selector := by
  rw [readPlain, read_of_derives h]
  rfl

theorem isNull_form (selector : Selector) : selector.form.isNull = false := by
  cases selector <;> rfl

/-- Only a list has an array for its form. -/
theorem ofItems_cons_form {σ : Type} (readText : String → Reading σ Selector) {item : Selector}
    (h : ∀ items, item ≠ .list items) (rest : List Value) :
    ofItems readText (item.form :: rest) = do
      let first ← ofValueWith readText item.form
      let others ← ofItems readText rest
      return first :: others := by
  cases item with
  | list items => exact absurd rfl (h items)
  | wildcard | field | one | many => rw [form, ofItems]; exact nofun

theorem ofTargets_one (target : String) (sub : Option Selector) :
    (ofTargets (("ref", .string target) :: selectMember sub) sub : Reading Unit Selector)
      = pure (.one target sub) := by
  cases sub <;> rfl

/-- Without members for it, the scope of a many reference is unrestricted. -/
theorem ofTargets_many (target : String) (sub : Option Selector) :
    (ofTargets (("many_ref", .string target) :: selectMember sub) sub : Reading Unit Selector)
      = pure (.many target sub .unrestricted) := by
  cases sub <;> rfl

mutual

/-- The form of a derived selector is read as the selector. -/
theorem ofValueWith_form {text : List Char} {selector : Selector} :
    Derives text selector → ofValueWith readPlain selector.form = pure selector
  | .wildcard => readPlain_of_derives .wildcard
  | .field hname => readPlain_of_derives (.field hname)
  | @Derives.one target _ sub _ htail => by
    rw [form, ofValueWith, ofSelectMember, if_neg (by decide), ofSelectMember_form htail, pure_bind]
    exact ofTargets_one _ sub
  | @Derives.many target _ sub _ htail => by
    rw [form, ofValueWith, ofSelectMember, if_neg (by decide), ofSelectMember_form htail, pure_bind]
    exact ofTargets_many _ sub

theorem ofSelectMember_form {tail : List Char} {sub : Option Selector} :
    DerivesTail tail sub → ofSelectMember readPlain (selectMember sub) = pure sub
  | .nothing => rfl
  | @DerivesTail.chain _ _ selector _ hselector => by
    rw [selectMember, ofSelectMember, if_pos rfl, isNull_form, if_neg (by decide),
      ofValueWith_form hselector, pure_bind]
  | @DerivesTail.group _ items hitems => by
    rw [selectMember, ofSelectMember, if_pos rfl, isNull_form, if_neg (by decide), form,
      ofValueWith, ofItems_form hitems, pure_bind, pure_bind]

theorem ofItems_form {text : List Char} {items : List Selector} :
    DerivesItems text items → ofItems readPlain (itemForms items) = pure items
  | .last _ hitem _ => by
    rw [itemForms, ofItems_cons_form _ hitem.ne_list, ofValueWith_form hitem, itemForms, ofItems,
      pure_bind, pure_bind]
  | .more _ hitem _ hrest => by
    rw [itemForms, ofItems_cons_form _ hitem.ne_list, ofValueWith_form hitem, ofItems_form hrest,
      pure_bind, pure_bind]

end

/-! ## All forms -/

/-- **A selector that has been read from a text is read again from its own text and from its JSON
form.** -/
theorem forms_agree {text : String} {selector : Selector} (h : read text = .ok selector) :
    read selector.text = .ok selector ∧ ofValue selector.form = .ok selector := by
  obtain ⟨-, derived, -, -, -, hderived, -⟩ :=
    written_of_run ((read_eq_ok_iff text selector).mp h)
  constructor
  · rw [← String.ofList_toList (s := selector.text)]
    exact read_of_derives (derives_text hderived)
  · rw [ofValue, ofValueWith_form hderived]
    rfl

set_option maxRecDepth 2000 in
/-- A group below a reference, written with white space that its own text does not have. -/
theorem forms_agree_group :
    let selector : Selector :=
      .one "vm" (some (.list [.wildcard, .many "d" (some (.field "b")) .unrestricted]))
    read "@vm( *,@[d].b)" = .ok selector ∧ read "@vm(*, @[d].b)" = .ok selector ∧
      ofValue (.object [("ref", .string "vm"), ("select", .array [.string "*",
        .object [("many_ref", .string "d"), ("select", .string "b")]])]) = .ok selector := by
  intro selector
  have h : read "@vm( *,@[d].b)" = .ok selector := rfl
  obtain ⟨htext, hform⟩ := forms_agree h
  have hwritten : selector.text = "@vm(*, @[d].b)" := by decide
  rw [hwritten] at htext
  exact ⟨h, htext, hform⟩

end LinkedDocs.Selector
