import LinkedDocs.Proofs.Query.Refusals

/-!
# What remembering selectors changes

Nothing but the time it takes. A selector that is remembered is the one that would be read again, so
each form and each request is read through the cache as it is read without one. What the cache holds
is described by the texts it was asked for: of those that are selectors it keeps the ones that were
used last, as many as it has room for, and a text that occurs again counts by its last use only.

The texts are found by reading the same forms with a reader that notes every text it is given. A
form that turns out to be malformed has been read in part by then, and the texts in this part count
too.
The two readers are compared step by step: `Reading.Agree` says that they end alike, and that what
one remembers and what the other has noted still fit together.

> `SelectorCache.after_calls`: after any calls, the next one ends as it would without a cache, and
> the cache holds exactly the texts that were used last.
-/

namespace LinkedDocs

/-! ## The texts that were used last -/

section Recent

variable {α : Type} [BEq α] [LawfulBEq α]

/-- What is kept of a list can be kept before or after its repetitions are left out. -/
theorem eraseDups_filter (keep : α → Bool) : ∀ as : List α,
    (as.filter keep).eraseDups = as.eraseDups.filter keep
  | [] => rfl
  | a :: as => by
    rw [List.eraseDups_cons, List.filter_cons, List.filter_cons,
      ← eraseDups_filter keep (as.filter fun b => !b == a), List.filter_filter]
    cases hkeep : keep a with
    | false =>
      have hothers : as.filter keep = as.filter fun b => keep b && !b == a := by
        apply List.filter_congr
        intro b _
        by_cases hb : b = a
        · simp [hb, hkeep]
        · simp [hb]
      simp [← hothers]
    | true => simp [List.eraseDups_cons, List.filter_filter, Bool.and_comm]
termination_by as => as.length
decreasing_by exact Nat.lt_succ_of_le (List.length_filter_le _ _)

theorem nodup_eraseDups : ∀ as : List α, as.eraseDups.Nodup
  | [] => List.nodup_nil
  | a :: as => by
    rw [List.eraseDups_cons, List.nodup_cons]
    refine ⟨?_, nodup_eraseDups _⟩
    intro hmem
    simp [List.mem_eraseDups] at hmem
termination_by as => as.length
decreasing_by exact Nat.lt_succ_of_le (List.length_filter_le _ _)

/-- If an element is left out of a list anyway, one more of the list is enough. -/
theorem take_filter_ne_take (a : α) : ∀ (count : Nat) {as : List α}, as.Nodup →
    ((as.take (count + 1)).filter (· != a)).take count = (as.filter (· != a)).take count
  | _, [], _ => rfl
  | count, b :: as, hnodup => by
    obtain ⟨hb, has⟩ := List.nodup_cons.mp hnodup
    rw [List.take_succ_cons, List.filter_cons, List.filter_cons]
    by_cases hba : b = a
    · subst hba
      have hall : ∀ c ∈ as, (c != b) = true := by
        intro c hc
        rw [bne_iff_ne]
        rintro rfl
        exact hb hc
      have htaken : ∀ c ∈ as.take count, (c != b) = true := fun c hc =>
        hall c (List.mem_of_mem_take hc)
      simp [List.filter_eq_self.mpr hall, List.filter_eq_self.mpr htaken, List.take_take]
    · cases count with
      | zero => simp
      | succ count =>
        have ih := take_filter_ne_take a count has
        simp [hba, ih]

/-- Using an element and keeping the first ones: it comes first, whatever has been dropped. -/
theorem take_eraseDups_cons (a : α) (as : List α) (count : Nat) :
    ((a :: as).eraseDups).take count
      = (a :: (as.eraseDups.take count).filter (· != a)).take count := by
  cases count with
  | zero => simp
  | succ count =>
    rw [List.eraseDups_cons, List.take_succ_cons, List.take_succ_cons,
      take_filter_ne_take a count (nodup_eraseDups as), ← eraseDups_filter]
    rfl

end Recent

/-! ## Two ways to read the same -/

namespace Reading

variable {σ τ α β : Type}

theorem run_get_bind (f : σ → Reading σ β) (s : σ) : (get >>= f).run s = (f s).run s := rfl

theorem run_modify_bind (change : σ → σ) (f : PUnit → Reading σ β) (s : σ) :
    (modify change >>= f).run s = (f PUnit.unit).run (change s) := rfl

/-- Two readings end alike, and keep a relation between what each of them remembers. -/
def Agree (R : σ → τ → Prop) (x : Reading σ α) (y : Reading τ α) : Prop :=
  ∀ s t, R s t → (x.run s).1 = (y.run t).1 ∧ R (x.run s).2 (y.run t).2

variable {R : σ → τ → Prop}

theorem agree_pure (a : α) : Agree R (pure a) (pure a) := fun _ _ h => ⟨rfl, h⟩

theorem agree_throw (error : QueryError) : Agree R (throw error : Reading σ α) (throw error) :=
  fun _ _ h => ⟨rfl, h⟩

theorem Agree.bind {x : Reading σ α} {y : Reading τ α} {f : α → Reading σ β} {g : α → Reading τ β}
    (hxy : Agree R x y) (hfg : ∀ a, Agree R (f a) (g a)) : Agree R (x >>= f) (y >>= g) := by
  intro s t hst
  obtain ⟨hresult, hleft⟩ := hxy s t hst
  rw [run_bind, run_bind]
  rcases hx : x.run s with ⟨result, s'⟩
  rcases hy : y.run t with ⟨result', t'⟩
  rw [hx, hy] at hresult hleft
  dsimp only at hresult hleft
  subst hresult
  cases result with
  | ok a => exact hfg a s' t' hleft
  | error error => exact ⟨rfl, hleft⟩

end Reading

namespace Selector

open Reading

variable {σ τ : Type} {R : σ → τ → Prop}

theorem agree_ofTargets (members : List (String × Value)) (sub : Option Selector) :
    Agree R (ofTargets members sub) (ofTargets members sub) := by
  unfold ofTargets
  split
  · exact agree_pure _
  · split
    · exact agree_pure _
    · exact agree_throw _
  · exact agree_throw _
  · exact agree_throw _
  · exact agree_throw _

variable {readText : String → Reading σ Selector} {readText' : String → Reading τ Selector}

mutual

/-- Any form is read alike if written selectors are. -/
theorem agree_ofValueWith (htext : ∀ text, Agree R (readText text) (readText' text)) :
    ∀ form : Value, Agree R (ofValueWith readText form) (ofValueWith readText' form)
  | .string text => by
    rw [ofValueWith, ofValueWith]
    exact htext text
  | .array items => by
    rw [ofValueWith, ofValueWith]
    exact (agree_ofItems htext items).bind fun selectors => agree_pure _
  | .object members => by
    rw [ofValueWith, ofValueWith]
    exact (agree_ofSelectMember htext members).bind fun sub => agree_ofTargets members sub
  | .null | .bool _ | .number _ => by
    rw [ofValueWith, ofValueWith]
    exact agree_throw _

theorem agree_ofItems (htext : ∀ text, Agree R (readText text) (readText' text)) :
    ∀ items : List Value, Agree R (ofItems readText items) (ofItems readText' items)
  | [] => by
    rw [ofItems, ofItems]
    exact agree_pure _
  | .array nested :: items => by
    rw [ofItems, ofItems]
    exact (agree_ofItems htext nested).bind fun first =>
      (agree_ofItems htext items).bind fun rest => agree_pure _
  | .null :: items | .bool _ :: items | .number _ :: items | .string _ :: items
  | .object _ :: items => by
    rw [ofItems, ofItems]
    · exact (agree_ofValueWith htext _).bind fun first =>
        (agree_ofItems htext items).bind fun rest => agree_pure _
    · nofun
    · nofun

theorem agree_ofSelectMember (htext : ∀ text, Agree R (readText text) (readText' text)) :
    ∀ members : List (String × Value),
      Agree R (ofSelectMember readText members) (ofSelectMember readText' members)
  | [] => by
    rw [ofSelectMember, ofSelectMember]
    exact agree_pure _
  | (name, value) :: members => by
    rw [ofSelectMember, ofSelectMember]
    split
    · split
      · exact agree_pure _
      · exact (agree_ofValueWith htext value).bind fun sub => agree_pure _
    · exact agree_ofSelectMember htext members

end


end Selector

/-- So is a request. -/
theorem Request.agree_ofValueWith {σ τ : Type} {R : σ → τ → Prop}
    {readText : String → Reading σ Selector} {readText' : String → Reading τ Selector}
    (htext : ∀ text, Reading.Agree R (readText text) (readText' text)) (value : Value) :
    Reading.Agree R (ofValueWith readText value) (ofValueWith readText' value) := by
  cases value with
  | null => exact Reading.agree_pure _
  | object members =>
    refine (Selector.agree_ofSelectMember htext members).bind fun select => ?_
    split
    · exact Reading.agree_pure _
    · exact Reading.agree_throw _
  | bool | number | string | array => exact Reading.agree_throw _

namespace SelectorCache

/-! ## Calls -/

/-- One use of a cache. -/
inductive Call where
  | parse (text : String)
  | selectorOf (form : Value)
  | requestOf (value : Value)

namespace Call

/-- What a call reads. -/
def Result : Call → Type
  | parse _ => Selector
  | selectorOf _ => Selector
  | requestOf _ => Request

/-- What it reads through a cache. -/
def run : (call : Call) → Reading SelectorCache call.Result
  | parse text => SelectorCache.read text
  | selectorOf form => SelectorCache.selectorOf form
  | requestOf value => SelectorCache.requestOf value

/-- What it reads without one. -/
def plain : (call : Call) → Except QueryError call.Result
  | parse text => Selector.read text
  | selectorOf form => Selector.ofValue form
  | requestOf value => Request.ofValue value

/-- What it reads if written selectors are read in a given way. -/
def readWith {σ : Type} (readText : String → Reading σ Selector) :
    (call : Call) → Reading σ call.Result
  | parse text => readText text
  | selectorOf form => Selector.ofValueWith readText form
  | requestOf value => Request.ofValueWith readText value

theorem run_eq (call : Call) : call.run = call.readWith SelectorCache.read := by
  cases call <;> rfl

theorem plain_eq (call : Call) : call.plain = ((call.readWith Selector.readPlain).run ()).1 := by
  cases call with
  | parse text =>
    show Selector.read text = ((Selector.readPlain text).run ()).1
    unfold Selector.readPlain
    cases Selector.read text <;> rfl
  | selectorOf form => rfl
  | requestOf value => rfl

theorem agree_readWith {σ τ : Type} {R : σ → τ → Prop} {readText : String → Reading σ Selector}
    {readText' : String → Reading τ Selector}
    (htext : ∀ text, Reading.Agree R (readText text) (readText' text)) (call : Call) :
    Reading.Agree R (call.readWith readText) (call.readWith readText') := by
  cases call with
  | parse text => exact htext text
  | selectorOf form => exact Selector.agree_ofValueWith htext form
  | requestOf value => exact Request.agree_ofValueWith htext value

/-- Reads a written selector and notes its text, the last one first. -/
def note (text : String) : Reading (List String) Selector := do
  modify fun noted => text :: noted
  match Selector.read text with
  | .ok selector => return selector
  | .error error => throw error

/-- The texts that calls read, the last one first: those that are read for themselves and those that
are met in other forms, as far as these are read at all. -/
def texts (calls : List Call) : List String :=
  calls.foldl (fun noted call => ((call.readWith note).run noted).2) []

end Call

/-- The cache after some calls. -/
def after (cache : SelectorCache) (calls : List Call) : SelectorCache :=
  calls.foldl (fun cache call => (call.run.run cache).2) cache

/-- The distinct selectors among some texts, in the same order. -/
def distinct (texts : List String) : List String :=
  (texts.filter fun text => (Selector.read text).isOk).eraseDups

/-! ## What a cache holds -/

/-- A cache with room for so many selectors holds those that were noted last, as they are read. -/
structure Holds (capacity : Nat) (cache : SelectorCache) (noted : List String) : Prop where
  room : cache.capacity = capacity
  texts : cache.entries.map Prod.fst = (distinct noted).take capacity
  selectors : ∀ text selector, (text, selector) ∈ cache.entries →
    Selector.read text = .ok selector

theorem Holds.empty (capacity : Nat) : Holds capacity (ofCapacity capacity) [] :=
  ⟨rfl, by simp [ofCapacity, distinct], nofun⟩

variable {capacity : Nat} {cache : SelectorCache} {noted : List String} {text : String}
  {selector : Selector}

/-- The texts are those before, but for the one that is used. -/
theorem texts_use (cache : SelectorCache) (text : String) (selector : Selector) :
    (cache.use text selector).entries.map Prod.fst
      = (text :: (cache.entries.map Prod.fst).filter (· != text)).take cache.capacity := by
  unfold use
  rw [List.map_take, List.map_cons, List.filter_map]
  rfl

theorem Holds.use (h : Holds capacity cache noted) (hread : Selector.read text = .ok selector) :
    Holds capacity (cache.use text selector) (text :: noted) := by
  refine ⟨h.room, ?_, ?_⟩
  · have hkept : distinct (text :: noted)
        = (text :: noted.filter fun text => (Selector.read text).isOk).eraseDups := by
      unfold distinct
      rw [List.filter_cons_of_pos]
      rw [hread]
      rfl
    rw [texts_use, h.room, h.texts, hkept, take_eraseDups_cons]
    rfl
  · intro other kept hmem
    unfold SelectorCache.use at hmem
    rcases List.mem_cons.mp (List.mem_of_mem_take hmem) with heq | hold
    · cases heq
      exact hread
    · exact h.selectors other kept (List.mem_filter.mp hold).1

/-- A text that is no selector leaves no trace. -/
theorem Holds.skip (h : Holds capacity cache noted) {error : QueryError}
    (hread : Selector.read text = .error error) : Holds capacity cache (text :: noted) := by
  refine ⟨h.room, ?_, h.selectors⟩
  rw [h.texts]
  unfold distinct
  rw [List.filter_cons_of_neg]
  rw [hread]
  exact Bool.false_ne_true

/-- What is remembered need not be read: the result is the same, and so is what is kept. -/
theorem Holds.run_read (h : Holds capacity cache noted) (text : String) :
    (SelectorCache.read text).run cache = match Selector.read text with
      | .ok selector => (.ok selector, cache.use text selector)
      | .error error => (.error error, cache) := by
  unfold SelectorCache.read
  rw [Reading.run_get_bind]
  cases hfound : cache.entries.lookup text with
  | none => cases Selector.read text <;> rfl
  | some selector =>
    rw [h.selectors text selector (Dict.mem_of_lookup hfound)]
    rfl

/-- Reading through a cache and noting the texts end alike, and the cache holds what is noted. -/
theorem agree_read (capacity : Nat) (text : String) :
    Reading.Agree (Holds capacity) (SelectorCache.read text) (Call.note text) := by
  intro cache noted h
  have hnote : (Call.note text).run noted
      = (Selector.read text, text :: noted) := by
    unfold Call.note
    rw [Reading.run_modify_bind]
    cases Selector.read text <;> rfl
  rw [h.run_read text, hnote]
  cases hread : Selector.read text with
  | ok selector => exact ⟨rfl, h.use hread⟩
  | error error => exact ⟨rfl, h.skip hread⟩

/-- Noting the texts changes nothing else. -/
theorem agree_note (text : String) :
    Reading.Agree (fun _ _ => True) (Call.note text) (Selector.readPlain text) := by
  intro noted _ _
  refine ⟨?_, trivial⟩
  unfold Call.note Selector.readPlain
  rw [Reading.run_modify_bind]
  cases Selector.read text <;> rfl

/-- One call: it ends as it does without a cache, and the cache holds what has been noted. -/
theorem Holds.call (h : Holds capacity cache noted) (call : Call) :
    (call.run.run cache).1 = call.plain
      ∧ Holds capacity (call.run.run cache).2 ((call.readWith Call.note).run noted).2 := by
  obtain ⟨hresult, hleft⟩ := Call.agree_readWith (agree_read capacity) call cache noted h
  obtain ⟨hplain, -⟩ := Call.agree_readWith agree_note call noted () trivial
  rw [call.run_eq, call.plain_eq]
  exact ⟨hresult.trans hplain, hleft⟩

/-- Any calls. -/
theorem Holds.calls (h : Holds capacity cache noted) (calls : List Call) :
    Holds capacity (cache.after calls)
      (calls.foldl (fun noted call => ((call.readWith Call.note).run noted).2) noted) := by
  induction calls generalizing cache noted with
  | nil => exact h
  | cons call calls ih => exact ih (h.call call).2

/-- After any calls, the next one ends as it would without a cache; and of the distinct selectors
that were read so far, for themselves or in other forms, the cache holds as many as it has room for,
the one that was used last first, each as it is read. -/
theorem after_calls (capacity : Nat) (calls : List Call) (call : Call) :
    (call.run.run ((ofCapacity capacity).after calls)).1 = call.plain
      ∧ ((ofCapacity capacity).after calls).entries.map Prod.fst
          = (distinct (Call.texts calls)).take capacity
      ∧ ∀ text selector, (text, selector) ∈ ((ofCapacity capacity).after calls).entries →
          Selector.read text = .ok selector := by
  have h : Holds capacity ((ofCapacity capacity).after calls) (Call.texts calls) :=
    (Holds.empty capacity).calls calls
  exact ⟨(h.call call).1, h.texts, h.selectors⟩

end SelectorCache

end LinkedDocs
