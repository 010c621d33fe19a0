import LinkedDocs.Proofs.Pass.Fetch

/-!
# The progress of a pass

What a step of a pass adds to the memo is what it has fetched. `Memo.Correct` is the invariant:
whatever is filed is what a needed fetch gives; for a page, and for a document whose references have
been followed, everything that hangs below is filed as well (`Memo.Completes`).

`Progress` compares the memos before and after a step: nothing is taken out, and what is new is
filed at the nodes where the step is taken. Two steps one after the other are one step
(`Progress.trans`), and a fetch with all that is done before it is filed is a step
(`Progress.fetch`).
-/

namespace LinkedDocs

namespace Memo

/-- What has been filed under the key of a fetch. -/
def filed (memo : Memo) : Nat × Slot → Option (List Entity)
  | (node, .one id) => (memo.entity? node id).map Option.toList
  | (node, .many parent) => memo.page? node parent

/-- Counts a hit. -/
def countHit (memo : Memo) : Memo := { memo with hits := memo.hits + 1 }

/-- Counts a fetch. -/
def countFetch (memo : Memo) : Fetch → Memo
  | .one .. => { memo with gets := memo.gets + 1 }
  | .many .. => { memo with finds := memo.finds + 1 }

/-- Files what a fetch has given. -/
def file (memo : Memo) : Fetch → List Entity → Memo
  | .one node id, found => memo.addEntity node.info.id id found.head?
  | .many node parent _, found => memo.addPage node.info.id parent found

/-! ## Counts -/

theorem gets_countFetch (memo : Memo) (f : Fetch) :
    (memo.countFetch f).gets = memo.gets + [f].countP (·.isOne) := by
  cases f <;> rfl

theorem finds_countFetch (memo : Memo) (f : Fetch) :
    (memo.countFetch f).finds = memo.finds + [f].countP (!·.isOne) := by
  cases f <;> rfl

theorem gets_file (memo : Memo) (f : Fetch) (found : List Entity) :
    (memo.file f found).gets = memo.gets := by
  cases f <;> rfl

theorem finds_file (memo : Memo) (f : Fetch) (found : List Entity) :
    (memo.file f found).finds = memo.finds := by
  cases f <;> rfl

/-! ## What is filed -/

@[simp] theorem filed_countHit (memo : Memo) : memo.countHit.filed = memo.filed := by
  funext ⟨node, slot⟩
  cases slot <;> rfl

@[simp] theorem filed_countFetch (memo : Memo) (f : Fetch) :
    (memo.countFetch f).filed = memo.filed := by
  funext ⟨node, slot⟩
  cases f <;> cases slot <;> rfl

theorem filed_addEntity (memo : Memo) (plan : Plan) (id : String) (entity : Option Entity)
    (key : Nat × Slot) :
    (memo.addEntity plan.info.id id entity).filed key
      = if key = (Fetch.one plan id).key then some entity.toList else memo.filed key := by
  obtain ⟨node, slot⟩ := key
  cases slot with
  | one other =>
    show Option.map Option.toList ((memo.addEntity _ _ _).entity? _ _) = _
    rw [entity?_addEntity]
    by_cases h : node = plan.info.id ∧ other = id
    · obtain ⟨rfl, rfl⟩ := h
      rw [if_pos ⟨rfl, rfl⟩]
      exact (if_pos rfl).symm
    · rw [if_neg h, if_neg fun heq => h (by simpa [Fetch.key] using heq)]
      rfl
  | many parent =>
    rw [if_neg fun heq => by simp [Fetch.key] at heq]
    rfl

theorem filed_addPage (memo : Memo) (plan : Plan) (parent : Option String) (link : Filter)
    (page : List Entity) (key : Nat × Slot) :
    (memo.addPage plan.info.id parent page).filed key
      = if key = (Fetch.many plan parent link).key then some page else memo.filed key := by
  obtain ⟨node, slot⟩ := key
  cases slot with
  | one id =>
    rw [if_neg fun heq => by simp [Fetch.key] at heq]
    rfl
  | many other =>
    show (memo.addPage _ _ _).page? _ _ = _
    rw [page?_addPage]
    by_cases h : node = plan.info.id ∧ other = parent
    · obtain ⟨rfl, rfl⟩ := h
      rw [if_pos ⟨rfl, rfl⟩]
      exact (if_pos rfl).symm
    · rw [if_neg h, if_neg fun heq => h (by simpa [Fetch.key] using heq)]
      rfl

/-- What a fetch has given is filed under its key. -/
theorem filed_file {reply : (call : Call) → call.Answer} {p : Permission} {f : Fetch}
    {found : List Entity} (h : f.found reply p = .ok found) (memo : Memo) (key : Nat × Slot) :
    (memo.file f found).filed key = if key = f.key then some found else memo.filed key := by
  cases f with
  | one node id =>
    rw [file, filed_addEntity, Fetch.toList_head? h]
  | many node parent link => exact filed_addPage memo node parent link found key

section Correct

variable (reply : (call : Call) → call.Answer) (p : Permission)

/-- All that is needed from the fetch on is filed, as the store has it. -/
def Completes (memo : Memo) (f : Fetch) : Prop :=
  ∀ g, Needed reply p f g → ∃ found, g.found reply p = .ok found ∧ memo.filed g.key = some found

/-- What is filed is what needed fetches give, and where references have been followed, all that is
needed is filed. -/
structure Correct (start : Fetch) (memo : Memo) : Prop where
  filed : ∀ {key found}, memo.filed key = some found →
    ∃ f, Needed reply p start f ∧ f.key = key ∧ f.found reply p = .ok found ∧
      (f.isOne = false → Completes reply p memo f)
  expanded : ∀ {node id}, memo.isExpanded node id = true →
    ∃ plan e, Met reply p start plan e ∧ plan.info.id = node ∧ e.id = id ∧
      ∀ g ∈ plan.references e, Completes reply p memo g

end Correct

variable {reply : (call : Call) → call.Answer} {p : Permission} {start f g : Fetch}
  {memo memo' : Memo}

theorem Completes.mono (h : Completes reply p memo f)
    (kept : ∀ {key found}, memo.filed key = some found → memo'.filed key = some found) :
    Completes reply p memo' f := by
  intro g hg
  obtain ⟨found, hfound, hfiled⟩ := h g hg
  exact ⟨found, hfound, kept hfiled⟩

/-- A fetch is complete if it is filed and all that it leads to is complete. -/
theorem completes_of_references {found : List Entity} (hfound : f.found reply p = .ok found)
    (hfiled : memo.filed f.key = some found)
    (hbelow : ∀ e ∈ found, ∀ g ∈ f.node.references e, Completes reply p memo g) :
    Completes reply p memo f := by
  intro g hg
  rcases hg.cases_head with rfl | ⟨next, ⟨found', hfound', e, he, hnext⟩, hrest⟩
  · exact ⟨found, hfound, hfiled⟩
  · obtain rfl : found = found' := by
      rw [hfound] at hfound'
      exact Except.ok.inj hfound'
    exact hbelow e he next hnext g hrest

/-- Nothing is filed before the first step. -/
theorem correct_empty : Correct reply p start .empty where
  filed {key found} h := by
    obtain ⟨node, slot⟩ := key
    cases slot <;> cases h
  expanded h := by cases h

/-- What is filed for a needed fetch is what it gives. -/
theorem Correct.found (h : Correct reply p start memo) (keyed : Keyed reply)
    (hnodup : start.node.ids.Nodup) (hneeded : Needed reply p start f) {found : List Entity}
    (hfiled : memo.filed f.key = some found) :
    f.found reply p = .ok found ∧ (f.isOne = false → Completes reply p memo f) := by
  obtain ⟨g, hg, hkey, hfound, hcomplete⟩ := h.filed hfiled
  obtain rfl := hg.unique keyed hnodup hneeded hkey
  exact ⟨hfound, hcomplete⟩

/-- All that a document refers to whose references have been followed is filed. -/
theorem Correct.references (h : Correct reply p start memo) (keyed : Keyed reply)
    (hnodup : start.node.ids.Nodup) {plan : Plan} {e : Entity} (hmet : Met reply p start plan e)
    (hexpanded : memo.isExpanded plan.info.id e.id = true) :
    ∀ g ∈ plan.references e, Completes reply p memo g := by
  obtain ⟨plan', e', hmet', hnode, hid, hcomplete⟩ := h.expanded hexpanded
  obtain ⟨rfl, rfl⟩ := hmet.unique keyed hnodup hmet' hnode.symm hid.symm
  exact hcomplete

/-- What is not filed anew stays correct. -/
theorem Correct.of_same (h : Correct reply p start memo) (hfiled : memo'.filed = memo.filed)
    (hexpanded : memo'.expanded = memo.expanded) : Correct reply p start memo' where
  filed hkey := by
    rw [hfiled] at hkey
    obtain ⟨f, hneeded, hf, hfound, hcomplete⟩ := h.filed hkey
    refine ⟨f, hneeded, hf, hfound, fun hmany => (hcomplete hmany).mono fun hold => ?_⟩
    rwa [hfiled]
  expanded hnode := by
    unfold isExpanded at hnode
    rw [hexpanded] at hnode
    obtain ⟨plan, e, hmet, hplan, hid, hcomplete⟩ := h.expanded hnode
    refine ⟨plan, e, hmet, hplan, hid, fun g hg => (hcomplete g hg).mono fun hold => ?_⟩
    rwa [hfiled]

/-- Filing what a needed fetch gives. All that a page leads to has to be complete before. -/
theorem Correct.file (h : Correct reply p start memo) {found : List Entity}
    (hneeded : Needed reply p start f) (hfound : f.found reply p = .ok found)
    (hnew : memo.filed f.key = none)
    (hbelow : f.isOne = false →
      ∀ e ∈ found, ∀ g ∈ f.node.references e, Completes reply p memo g) :
    Correct reply p start (memo.file f found) := by
  have kept : ∀ {key found'}, memo.filed key = some found' →
      (memo.file f found).filed key = some found' := by
    intro key found' hold
    rw [filed_file hfound]
    split
    · next heq =>
      rw [heq, hnew] at hold
      cases hold
    · exact hold
  have hexpanded : (memo.file f found).expanded = memo.expanded := by
    cases f <;> rfl
  constructor
  · intro key found' hkey
    by_cases heq : key = f.key
    · subst heq
      rw [filed_file hfound, if_pos rfl] at hkey
      cases hkey
      refine ⟨f, hneeded, rfl, hfound, fun hmany => ?_⟩
      refine completes_of_references hfound ?_ fun e he g hg => (hbelow hmany e he g hg).mono kept
      rw [filed_file hfound, if_pos rfl]
    · rw [filed_file hfound, if_neg heq] at hkey
      obtain ⟨g, hg, hgkey, hgfound, hgcomplete⟩ := h.filed hkey
      exact ⟨g, hg, hgkey, hgfound, fun hmany => (hgcomplete hmany).mono kept⟩
  · intro node id hnode
    unfold isExpanded at hnode
    rw [hexpanded] at hnode
    obtain ⟨plan, e, hmet, hplan, hid, hbelow⟩ := h.expanded hnode
    exact ⟨plan, e, hmet, hplan, hid, fun g hg => (hbelow g hg).mono kept⟩

/-- Noting that the references of a document have been followed. -/
theorem Correct.note (h : Correct reply p start memo) {plan : Plan} {e : Entity}
    (hmet : Met reply p start plan e)
    (hcomplete : ∀ g ∈ plan.references e, Completes reply p memo g) :
    Correct reply p start (memo.addExpanded plan.info.id e.id) where
  filed hkey := h.filed hkey
  expanded hnode := by
    rcases isExpanded_addExpanded hnode with ⟨rfl, rfl⟩ | hold
    · exact ⟨plan, e, hmet, rfl, rfl, hcomplete⟩
    · exact h.expanded hold

end Memo

section Progress

variable (reply : (call : Call) → call.Answer) (p : Permission) (start : Fetch)

/-- What has come about from one memo to another, by fetches at nodes with these numbers. -/
structure Progress (nodes : List Nat) (memo memo' : Memo) : Prop where
  correct : memo'.Correct reply p start
  kept : ∀ {key found}, memo.filed key = some found → memo'.filed key = some found
  within : ∀ {key}, memo'.filed key ≠ none → memo.filed key ≠ none ∨ key.1 ∈ nodes

end Progress

namespace Progress

variable {reply : (call : Call) → call.Answer} {p : Permission} {start : Fetch}
  {nodes nodes' : List Nat} {memo memo₁ memo' : Memo}

theorem mono (h : Progress reply p start nodes memo memo') (hnodes : nodes ⊆ nodes') :
    Progress reply p start nodes' memo memo' where
  correct := h.correct
  kept := h.kept
  within hkey := (h.within hkey).imp_right fun hnode => hnodes hnode

/-- Two steps one after the other. -/
theorem trans (h : Progress reply p start nodes memo memo₁)
    (h' : Progress reply p start nodes memo₁ memo') : Progress reply p start nodes memo memo' where
  correct := h'.correct
  kept hold := h'.kept (h.kept hold)
  within hkey := by
    rcases h'.within hkey with hbetween | hnode
    · exact h.within hbetween
    · exact .inr hnode

/-- A step that files nothing. -/
theorem of_same (correct : memo'.Correct reply p start)
    (hfiled : ∀ key, memo'.filed key = memo.filed key) :
    Progress reply p start nodes memo memo' where
  correct := correct
  kept hold := by
    rw [hfiled]
    exact hold
  within hkey := by
    rw [hfiled] at hkey
    exact .inl hkey

/-- A hit. -/
theorem hit (correct : memo.Correct reply p start) :
    Progress reply p start nodes memo memo.countHit := by
  refine .of_same (correct.of_same (Memo.filed_countHit _) rfl) fun key => ?_
  rw [Memo.filed_countHit]

/-- A fetch: it is counted, then comes what is done before it is filed, at other nodes, and in the
end it is filed. -/
theorem fetch {f : Fetch} {found : List Entity}
    (h : Progress reply p start nodes (memo.countFetch f) memo')
    (hneeded : Needed reply p start f) (hfound : f.found reply p = .ok found)
    (hnew : memo.filed f.key = none) (hother : f.key.1 ∉ nodes)
    (hbelow : f.isOne = false →
      ∀ e ∈ found, ∀ g ∈ f.node.references e, memo'.Completes reply p g) :
    Progress reply p start (f.key.1 :: nodes) memo (memo'.file f found) := by
  have hwithin : ∀ {key}, memo'.filed key ≠ none → memo.filed key ≠ none ∨ key.1 ∈ nodes := by
    intro key hkey
    have hbefore := h.within hkey
    rwa [Memo.filed_countFetch] at hbefore
  have hstill : memo'.filed f.key = none := by
    by_contra hthere
    rcases hwithin hthere with hold | hnode
    · exact hold hnew
    · exact hother hnode
  constructor
  case correct => exact h.correct.file hneeded hfound hstill hbelow
  case kept =>
    intro key found' hold
    rw [Memo.filed_file hfound]
    split
    · next heq =>
      rw [heq, hnew] at hold
      cases hold
    · refine h.kept ?_
      rwa [Memo.filed_countFetch]
  case within =>
    intro key hkey
    rw [Memo.filed_file hfound] at hkey
    split at hkey
    · next heq =>
      rw [heq]
      exact .inr (List.mem_cons_self ..)
    · exact (hwithin hkey).imp_right fun hnode => List.mem_cons_of_mem _ hnode

end Progress

end LinkedDocs
