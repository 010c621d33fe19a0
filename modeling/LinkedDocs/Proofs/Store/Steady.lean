import LinkedDocs.Proofs.Store.Identity

/-!
# Stores that hold still

A server is steady in a state if reads do not change what later reads are answered, and if it shows
a document in one way: what it shows of a collection, for the same fields and with the same id, is
the same. Nothing else is asked of it. In particular it may fail, be it always or at some reads.

> `Reachable.steady`: a store in memory is steady, whatever calls it has been through.

A dialogue of reads with a steady server goes as the answers in the state at its start lead it
(`Steady.observe_eq`).
-/

namespace LinkedDocs

/-- The state of a server after some calls. -/
def Server.after {σ : Type} (server : Server σ) (s : σ) (calls : List Call) : σ :=
  calls.foldl (fun s call => (server s call).2) s

/-- The answers show this document of a collection, asked for these fields. -/
def Shows (reply : (call : Call) → call.Answer) (collection : String) (projection : Projection)
    (e : Entity) : Prop :=
  (∃ id, reply (.get collection id projection) = .ok (some e)) ∨
    ∃ filter found, reply (.find collection filter projection) = .ok found ∧ e ∈ found

/-- Documents of a collection that are shown for the same fields are told apart by their ids. -/
def Keyed (reply : (call : Call) → call.Answer) : Prop :=
  ∀ {collection projection e e'}, Shows reply collection projection e →
    Shows reply collection projection e' → e.id = e'.id → e = e'

/-- Reads leave the answers to reads as they are, and these tell documents apart by their ids. -/
structure Server.Steady {σ : Type} (server : Server σ) (s : σ) : Prop where
  unchanging : ∀ reads : List Call, (∀ call ∈ reads, call.isRead) → ∀ call : Call, call.isRead →
    (server (server.after s reads) call).1 = (server s call).1
  keyed : Keyed fun call => (server s call).1

namespace Dialogue

variable {α σ : Type} {server : Server σ} {s : σ}

/-- From a moment at which some reads have been made, a dialogue of reads goes as the answers at the
start lead it. -/
theorem run_recording_of_steady (steady : server.Steady s) (d : Dialogue α)
    (hd : d.OnlyAsks Call.isRead) :
    ∀ reads : List Call, (∀ call ∈ reads, call.isRead) →
      (d.run server.recording (reads, server.after s reads)).1
          = d.eval (fun call => (server s call).1) ∧
        (d.run server.recording (reads, server.after s reads)).2.1
          = reads ++ d.calls fun call => (server s call).1 := by
  induction d with
  | done a =>
    intro reads _
    exact ⟨rfl, (List.append_nil reads).symm⟩
  | ask call next ih =>
    intro reads hreads
    have hanswer := steady.unchanging reads hreads call hd.1
    have hafter : (server (server.after s reads) call).2 = server.after s (reads ++ [call]) := by
      rw [Server.after, Server.after, List.foldl_append]
      rfl
    have hmore : ∀ read ∈ reads ++ [call], read.isRead := by
      intro read hread
      rcases List.mem_append.mp hread with hold | hnew
      · exact hreads read hold
      · rw [List.mem_singleton.mp hnew]
        exact hd.1
    have hrest := ih (server s call).1 (hd.2 _) (reads ++ [call]) hmore
    have hstep : (ask call next).run server.recording (reads, server.after s reads)
        = (next (server s call).1).run server.recording
            (reads ++ [call], server.after s (reads ++ [call])) := by
      show (next (server (server.after s reads) call).1).run _
        (reads ++ [call], (server (server.after s reads) call).2) = _
      rw [hanswer, hafter]
    rw [hstep, eval_ask, calls]
    rw [List.append_assoc, List.singleton_append] at hrest
    exact hrest

end Dialogue

/-- A dialogue of reads with a steady server: its result and its calls. -/
theorem Server.Steady.observe_eq {α σ : Type} {server : Server σ} {s : σ}
    (steady : server.Steady s) {d : Dialogue α} (hd : d.OnlyAsks Call.isRead) :
    d.observe server s = (d.eval (fun call => (server s call).1),
      d.calls fun call => (server s call).1) := by
  obtain ⟨hresult, hcalls⟩ :=
    Dialogue.run_recording_of_steady steady d hd [] fun _ hcall => absurd hcall List.not_mem_nil
  exact Prod.ext hresult hcalls

namespace Memory

/-- What a search finds is read from documents of the collection. -/
theorem mem_of_select {filter : Filter} {projection : Projection} {documents : List Fields}
    {found : List Entity} (h : select filter projection documents = .ok found) {e : Entity}
    (he : e ∈ found) : ∃ document ∈ documents, load document projection = .ok e := by
  induction documents generalizing found with
  | nil =>
    cases h
    exact absurd he List.not_mem_nil
  | cons d rest ih =>
    have hlater : ∀ others, select filter projection rest = .ok others → e ∈ others →
        ∃ document ∈ d :: rest, load document projection = .ok e := by
      intro others hothers hmem
      obtain ⟨document, hdocument, hload⟩ := ih hothers hmem
      exact ⟨document, List.mem_cons_of_mem d hdocument, hload⟩
    unfold select at h
    cases hall : load d .all with
    | error cause => rw [hall] at h; cases h
    | ok whole =>
      rw [hall] at h
      by_cases hpass : filter.holds whole = true
      · cases hload : load d projection with
        | error cause => simp [bind, Except.bind, hpass, hload] at h
        | ok shown =>
          cases hrest : select filter projection rest with
          | error cause => simp [bind, Except.bind, hpass, hload, hrest] at h
          | ok others =>
            obtain rfl : shown :: others = found := by
              simpa [bind, Except.bind, pure, Except.pure, hpass, hload, hrest] using h
            rcases List.mem_cons.mp he with rfl | hmem
            · exact ⟨d, List.mem_cons_self .., hload⟩
            · exact hlater others hrest hmem
      · have hrest : select filter projection rest = .ok found := by
          simpa [bind, Except.bind, hpass] using h
        exact hlater found hrest he

/-- What is shown is read from a document of the collection. -/
theorem load_of_shows {m : Memory} {collection : String} {projection : Projection} {e : Entity}
    (h : Shows m.reply collection projection e) :
    ∃ document ∈ m.documents collection, load document projection = .ok e := by
  rcases h with ⟨id, hget⟩ | ⟨filter, found, hfind, he⟩
  · have hanswer : (m.get collection id projection).1 = .ok (some e) := hget
    rw [get] at hanswer
    split at hanswer
    · cases hanswer
    · cases hfound : (m.documents collection).find? (hasId id) with
      | none => simp [hfound] at hanswer
      | some document =>
        refine ⟨document, List.mem_of_find?_eq_some hfound, ?_⟩
        cases hload : load document projection with
        | error cause => simp [hfound, hload, Except.map] at hanswer
        | ok shown =>
          obtain rfl : shown = e := by simpa [hfound, hload, Except.map] using hanswer
          rfl
  · have hanswer : (m.find collection filter projection).1 = .ok found := hfind
    rw [find] at hanswer
    split at hanswer
    · cases hanswer
    · exact mem_of_select hanswer he

/-- Where ids are text, a document is shown under the id that it has. -/
theorem storedId_of_load {document : Fields} {projection : Projection} {e : Entity}
    (htext : ∀ value, document.get? idField = some value → ∃ id, value = .string id)
    (h : load document projection = .ok e) : storedId document = some e.id := by
  have hstored : Entity.ofStored (projection.apply document) = .ok e := by
    unfold load at h
    cases hread : Entity.ofStored (projection.apply document) with
    | error fault => rw [hread] at h; cases h
    | ok read => rw [hread] at h; cases h; rfl
  obtain ⟨value, id, hvalue, hid, rfl⟩ := (Entity.ofFields_eq_ok_iff _ _).mp hstored
  rw [Entity.get?_visible, Projection.get?_apply, Projection.includes_id] at hvalue
  have hthere : document.get? idField = some value := hvalue
  obtain ⟨text, rfl⟩ := htext value hthere
  obtain rfl : text = id := Option.some.inj hid
  exact storedId_eq_some.mpr hthere

/-- **A store in memory holds still while it is read**, whatever calls it has been through, be it
within reach or not. -/
theorem Reachable.steady {m : Memory} (h : m.Reachable) : Server.Steady answer m where
  unchanging reads hreads call hcall := by
    have hsame : ∀ (m' : Memory) (reads : List Call), m.SameContent m' →
        (∀ read ∈ reads, read.isRead) → m.SameContent (Server.after answer m' reads) := by
      intro m' reads
      induction reads generalizing m' with
      | nil => exact fun same _ => same
      | cons read rest ih =>
        intro same hall
        obtain ⟨hread, hrest⟩ := List.forall_mem_cons.mp hall
        exact ih _ (answer_read same hread).2 hrest
    exact (answer_read (hsame m reads (.refl m) hreads) hcall).1
  keyed {collection projection e e'} he he' hid := by
    obtain ⟨document, hdocument, hload⟩ := load_of_shows he
    obtain ⟨document', hdocument', hload'⟩ := load_of_shows he'
    have hown := storedId_of_load (h.textIds collection document hdocument) hload
    have hown' := storedId_of_load (h.textIds collection document' hdocument') hload'
    rw [← hid] at hown'
    -- both are the one document that has the id
    obtain rfl := h.distinct.eq_of_storedId_eq hdocument hdocument' hown hown'
    exact Except.ok.inj (hload.symm.trans hload')

end Memory

end LinkedDocs
