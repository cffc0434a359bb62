/-
# `TigPool.ChunkLife` — which chunks a retention run may remove

A retention run removes a chunk when its row in `chunk_last_ref` is at or under the floor
and no capture under the floor uses it.  That is safe for a chunk whose row bounds the height
of every capture that still uses it.  A complete capture of a new block keeps this; a failed
capture does not touch the index, so a chunk that has a row already is exposed when a failed
capture above this row uses it, and so is one that gets a row below a failed capture.
-/
import TigPool.Captures
import TigPool.RetentionDay
import TigPool.Cursor

namespace TigPool

open Basis

/-! ## The rows of the index -/

namespace ChunkIndex

variable {index : Table String ℕ} {digests : List String} {height : ℕ} {digest : String}

theorem lookup_raise : (raise index digests height).lookup digest
    = if digest ∈ digests then some (max ((index.lookup digest).getD 0) height)
      else index.lookup digest := by
  induction digests with
  | nil => rfl
  | cons first rest ih =>
      show (AList.insert first (max (((raise index rest height).lookup first).getD 0) height)
        (raise index rest height)).lookup digest = _
      rw [Table.lookup_insert_eq]
      by_cases hfirst : digest = first
      · subst hfirst
        rw [if_pos rfl, if_pos (List.mem_cons_self ..), ih]
        by_cases hrest : digest ∈ rest
        · rw [if_pos hrest, Option.getD_some, max_assoc, max_self]
        · rw [if_neg hrest]
      · rw [if_neg hfirst, ih]
        simp [hfirst]

theorem lookup_lift : (lift index digests height).lookup digest
    = (index.lookup digest).map fun h => if digest ∈ digests then max h height else h :=
  Table.lookup_mapVals

theorem lookup_drop : (drop index digests).lookup digest
    = if digest ∈ digests then none else index.lookup digest := by
  induction digests with
  | nil => rfl
  | cons first rest ih =>
      show (AList.erase first (drop index rest)).lookup digest = _
      by_cases hfirst : digest = first
      · subst hfirst
        rw [AList.lookup_erase, if_pos (List.mem_cons_self ..)]
      · rw [AList.lookup_erase_ne hfirst, ih]
        simp [hfirst]

theorem lookup_of_drop {r : ℕ} (h : (drop index digests).lookup digest = some r) :
    index.lookup digest = some r := by
  rw [lookup_drop] at h
  split at h
  next => cases h
  next => exact h

end ChunkIndex

/-- Only captures that do not expire are left unexpired. -/
theorem Retention.putExpired_live {db : Db} {ids : List Uuid} {id : Uuid} {attempt : CaptureAttempt}
    (h : (putExpired db ids).observation.archive.captureAttempts.lookup id = some attempt)
    (hlive : attempt.expired = false) :
    db.observation.archive.captureAttempts.lookup id = some attempt := by
  change (Table.mapVals (fun id a => if id ∈ ids then { a with expired := true } else a)
    db.observation.archive.captureAttempts).lookup id = some attempt at h
  rw [Table.lookup_mapVals, Option.map_eq_some_iff] at h
  obtain ⟨old, hold, rfl⟩ := h
  split at hlive
  next => cases hlive
  next hnot => rwa [if_neg hnot]

namespace BlockStore

variable {blocks : Table String ObservedBlock}

theorem highest_spec {id : String} {b : ObservedBlock} (hb : blocks.lookup id = some b) :
    ∃ e, highest blocks = some e ∧ b.height ≤ e.2.height := by
  have hmem : (id, b) ∈ blocks.entries.map fun e => (e.1, e.2) :=
    List.mem_map.mpr ⟨⟨id, b⟩, Table.mem_entries_iff.mpr hb, rfl⟩
  cases hhighest : highest blocks with
  | none =>
      rw [List.argmax_eq_none.mp hhighest] at hmem
      cases hmem
  | some e => exact ⟨e, rfl, List.le_of_mem_argmax (f := fun e => e.2.height) hmem hhighest⟩

theorem highest_mem {e : String × ObservedBlock} (h : highest blocks = some e) :
    blocks.lookup e.1 = some e.2 := by
  obtain ⟨⟨id, b⟩, hentry, rfl⟩ := List.mem_map.mp (List.argmax_mem h)
  exact Table.mem_entries_iff.mp hentry

theorem below_spec {height : ℕ} {e : String × ObservedBlock} (h : below blocks height = some e)
    {id : String} {b : ObservedBlock} (hb : blocks.lookup id = some b) (hlt : b.height < height) :
    b.height ≤ e.2.height := by
  have hmem : (id, b) ∈ blocks.entries.map fun e => (e.1, e.2) :=
    List.mem_map.mpr ⟨⟨id, b⟩, Table.mem_entries_iff.mpr hb, rfl⟩
  exact List.le_of_mem_argmax (f := fun e => e.2.height)
    (List.mem_filter.mpr ⟨hmem, decide_eq_true hlt⟩) h

theorem below_eq_none {height : ℕ} (h : below blocks height = none) {id : String}
    {b : ObservedBlock} (hb : blocks.lookup id = some b) : height ≤ b.height := by
  have hmem : (id, b) ∈ blocks.entries.map fun e => (e.1, e.2) :=
    List.mem_map.mpr ⟨⟨id, b⟩, Table.mem_entries_iff.mpr hb, rfl⟩
  have hnil := List.argmax_eq_none.mp h
  have hnot := List.filter_eq_nil_iff.mp hnil (id, b) hmem
  simpa using hnot

variable {archive : Archive} {height r : ℕ} {refs : List String}
  {latest : Option (String × List String)} {digest : String}

/-- Is the block with this height the newest? -/
def isNewest (blocks : Table String ObservedBlock) (height : ℕ) : Bool :=
  (blocks.any fun _ b => height < b.height) = false

/-- The chunks that a newest block no longer uses, and the height of their last use. -/
def dropped (blocks : Table String ObservedBlock) (archive : Archive) (height : ℕ)
    (refs : List String) (latest : Option (String × List String)) : List String × ℕ :=
  if isNewest blocks height = true then
    (below blocks height).elim ([], 0) fun e =>
      ((previousReferences archive latest e.1 e.2).filter (· ∉ refs), e.2.height)
  else ([], 0)

theorem isNewest_spec (h : isNewest blocks height = true) {id : String} {b : ObservedBlock}
    (hb : blocks.lookup id = some b) : b.height ≤ height := by
  have hnot := Table.any_eq_false.mp (of_decide_eq_true h) id b hb
  simpa using hnot

/-- A row was there, and only rises; or the newest block writes it for a chunk that it
does not use. -/
theorem track_row (h : (track blocks archive height refs latest).lookup digest = some r) :
    (∃ r₀, archive.chunkLastRef.lookup digest = some r₀ ∧ r₀ ≤ r ∧
      (digest ∈ refs → height ≤ r ∨ (r = r₀ ∧ isNewest blocks height = true ∧
        below blocks height = none))) ∨
    (archive.chunkLastRef.lookup digest = none ∧ digest ∉ refs ∧
      digest ∈ (dropped blocks archive height refs latest).1 ∧
        r = (dropped blocks archive height refs latest).2) := by
  unfold track at h
  split at h
  next hhigher =>
    rw [ChunkIndex.lookup_lift, Option.map_eq_some_iff] at h
    obtain ⟨r₀, hr₀, rfl⟩ := h
    refine Or.inl ⟨r₀, hr₀, ?_, fun hmem => Or.inl ?_⟩
    · split
      · exact le_max_left ..
      · exact le_rfl
    · rw [if_pos hmem]
      exact le_max_right ..
  next hnewest =>
    have hnewest' : isNewest blocks height = true := by
      simpa [isNewest] using hnewest
    split at h
    next hbelow =>
      exact Or.inl ⟨r, h, le_rfl, fun _ => Or.inr ⟨rfl, hnewest', hbelow⟩⟩
    next previousId previous hbelow =>
      have hdropped : dropped blocks archive height refs latest
          = ((previousReferences archive latest previousId previous).filter (· ∉ refs),
            previous.height) := by
        rw [dropped, if_pos hnewest', hbelow]
        rfl
      rw [ChunkIndex.lookup_drop] at h
      split at h
      next => cases h
      next hnot =>
        rw [ChunkIndex.lookup_raise] at h
        split at h
        next hmem =>
          obtain rfl := Option.some.inj h
          cases hold : archive.chunkLastRef.lookup digest with
          | none =>
              refine Or.inr ⟨rfl, hnot, ?_, ?_⟩
              · rw [hdropped]
                exact hmem
              · rw [hdropped]
                exact Nat.zero_max _
          | some r₀ => exact Or.inl ⟨r₀, rfl, le_max_left .., fun hin => absurd hin hnot⟩
        next => exact Or.inl ⟨r, h, le_rfl, fun hin => absurd hin hnot⟩

/-- A row for a chunk that the block does not use is not lost. -/
theorem track_keeps {r₀ : ℕ} (h : archive.chunkLastRef.lookup digest = some r₀)
    (hnot : digest ∉ refs) :
    ∃ r, (track blocks archive height refs latest).lookup digest = some r ∧ r₀ ≤ r := by
  unfold track
  split
  next =>
    refine ⟨r₀, ?_, le_rfl⟩
    rw [ChunkIndex.lookup_lift, h, Option.map_some, if_neg hnot]
  next =>
    split
    next => exact ⟨r₀, h, le_rfl⟩
    next =>
      rw [ChunkIndex.lookup_drop, if_neg hnot, ChunkIndex.lookup_raise, h]
      split
      · exact ⟨_, rfl, le_max_left ..⟩
      · exact ⟨r₀, rfl, le_rfl⟩

end BlockStore

/-! ## Exposed chunks -/

open BlockStore

/-- The height of the highest block. -/
def BlockStore.lastHeight (blocks : Table String ObservedBlock) : ℕ :=
  (highest blocks).elim 0 fun e => e.2.height

/-- The chunks behind the saved block of a complete capture. -/
def BlockStore.savedReferences (db : Db) (source : Source) (c : BlockCapture) : List String :=
  ((blocksWith db source c).lookup c.blockId).elim []
    (manifestReferences (kept db (source.of c) (some c.height) false))

/-- The chunks of a recapture that the saved block does not use. -/
def BlockStore.extra (db : Db) (source : Source) (c : BlockCapture) : List String :=
  source.chunks.filter (· ∉ savedReferences db source c)

/-- The chunks to which a complete capture gives a row as those of the block before. -/
def BlockStore.droppedBy (db : Db) (source : Source) (c : BlockCapture) : List String × ℕ :=
  dropped (blocksWith db source c) (kept db (source.of c) (some c.height) false) c.height
    (savedReferences db source c) source.latest

/-- Does an unexpired capture above the height, or without one, use the chunk? -/
def Archive.usedAbove (archive : Archive) (height : ℕ) (digest : String) : Bool :=
  archive.captureAttempts.any fun _ attempt => attempt.expired = false ∧
    digest ∈ attempt.references ∧ attempt.height.any (fun h : ℕ => h ≤ height) = false

/-- Is there a row for the chunk that does not bound a capture at this height? -/
def Archive.rowBelow (archive : Archive) (height : Option ℕ) (digest : String) : Bool :=
  (archive.chunkLastRef.lookup digest).any fun r => height.any (fun h : ℕ => h ≤ r) = false

namespace Sys

/-- The chunks that a step exposes: a failed capture uses a chunk whose row is below it;
or a row is written below a capture that uses the chunk. -/
def exposes (s : Sys) : Action → List String
  | .observe (.record source none seen) =>
      source.chunks.filter (s.db.observation.archive.rowBelow seen)
  | .observe (.record source (some c) _) =>
      let archive := s.db.observation.archive
      if conflictsWith s.db c ≠ [] then source.chunks.filter (archive.rowBelow (some c.height))
      else
        let blocks := blocksWith s.db source c
        let dropped := droppedBy s.db source c
        (if (blocks.lookup c.blockId).any (fun b => b.height ≠ c.height) = true then source.chunks
          else []) ++
        (extra s.db source c).filter (fun digest => digest ∉ archive.chunkLastRef ∧
          archive.usedAbove (lastHeight blocks) digest = true) ++
        dropped.1.filter fun digest => digest ∉ archive.chunkLastRef ∧
          digest ∉ extra s.db source c ∧ archive.usedAbove dropped.2 digest = true
  | .observe .initializeChunkIndex =>
      let archive := s.db.observation.archive
      (highest s.db.observation.blocks).elim [] fun e =>
        (archive.observationChunks.filter (· ∉ manifestReferences archive e.2)).filter
          (archive.usedAbove e.2.height)
  | _ => []

/-- No exposed chunk is removed under a floor while an unexpired capture uses it. -/
def Unexposed (t : Sys × List String) (a : Action) : Prop :=
  a = .observe .removeChunks → ∀ plan ∈ t.1.held.targets, ∀ digest ∈ t.2,
    (t.1.db.observation.archive.chunkLastRef.lookup digest).any
      (fun r : ℕ => (r : ℤ) ≤ plan.blockHeight) = true →
    digest ∉ Retention.protectedChunks t.1.db plan → digest ∉ Compaction.liveChunks t.1.db

/-- Is the capture that of a saved block? -/
def Saves (s : Sys) (id : Uuid) : Prop :=
  ∃ blockId b, s.db.observation.blocks.lookup blockId = some b ∧ b.attemptId = id

end Sys

/-- A row bounds the height of every unexpired capture that uses the chunk, if the chunk is
not exposed; for the captures of saved blocks it always does. -/
def Archive.RowsBound (archive : Archive) (saves : Uuid → Prop) (exposed : List String) : Prop :=
  ∀ id attempt digest r, archive.captureAttempts.lookup id = some attempt →
    attempt.expired = false → digest ∈ attempt.references →
    archive.chunkLastRef.lookup digest = some r →
    attempt.height.any (fun h : ℕ => h ≤ r) = true ∨ (digest ∈ exposed ∧ ¬ saves id)

namespace Archive.RowsBound

variable {archive archive' : Archive} {saves saves' : Uuid → Prop} {exposed exposed' : List String}

/-- Fewer captures, fewer rows. -/
theorem shrink (hi : archive.RowsBound saves exposed)
    (hattempts : ∀ id attempt, archive'.captureAttempts.lookup id = some attempt →
      attempt.expired = false → archive.captureAttempts.lookup id = some attempt)
    (hrows : ∀ digest r, archive'.chunkLastRef.lookup digest = some r →
      archive.chunkLastRef.lookup digest = some r) : archive'.RowsBound saves exposed :=
  fun id attempt digest r hattempt hlive hmem hrow =>
    hi id attempt digest r (hattempts id attempt hattempt hlive) hlive hmem (hrows digest r hrow)

theorem mono (hi : archive.RowsBound saves exposed) (hsub : exposed ⊆ exposed')
    (hsaves : ∀ id, id ∈ archive.captureAttempts → saves' id → saves id) :
    archive.RowsBound saves' exposed' := by
  intro id attempt digest r hattempt hlive hmem hrow
  refine (hi id attempt digest r hattempt hlive hmem hrow).imp_right fun ⟨hexposed, hnot⟩ => ?_
  have hid := AList.lookup_isSome.mp (Option.isSome_of_eq_some hattempt)
  exact ⟨hsub hexposed, fun hs => hnot (hsaves id hid hs)⟩

variable {db : Db} {source : Source}

/-- A failed capture exposes the chunks whose rows are below it. -/
theorem kept {height : Option ℕ} {failed : Bool}
    (hi : db.observation.archive.RowsBound saves exposed) (hnot : ¬ saves source.attemptId) :
    (BlockStore.kept db source height failed).RowsBound saves
      (source.chunks.filter (db.observation.archive.rowBelow height) ++ exposed) := by
  intro id attempt digest r hattempt hlive hmem hrow
  change db.observation.archive.chunkLastRef.lookup digest = some r at hrow
  rw [kept_attempts] at hattempt
  rcases Table.lookup_insert_cases hattempt with ⟨rfl, rfl⟩ | ⟨-, hold⟩
  · cases hbound : height.any (fun h : ℕ => h ≤ r) with
    | true => exact Or.inl hbound
    | false =>
        refine Or.inr ⟨List.mem_append_left _ (List.mem_filter.mpr ⟨hmem, ?_⟩), hnot⟩
        rw [Archive.rowBelow, hrow, Option.any_some, hbound]
        rfl
  · refine (hi id attempt digest r hold hlive hmem hrow).imp_right fun ⟨hexposed, hnot⟩ => ?_
    exact ⟨List.mem_append_right _ hexposed, hnot⟩

/-- A row for every chunk that the newest block does not use exposes those that a higher
capture uses. -/
theorem indexed {e : String × ObservedBlock} {index : Table String ℕ}
    (hi : archive.RowsBound saves exposed)
    (hsaves : ∀ id attempt, saves id → archive.captureAttempts.lookup id = some attempt →
      attempt.height.any (fun h : ℕ => h ≤ e.2.height) = true)
    {digests : List String}
    (hindex : index = ChunkIndex.raise archive.chunkLastRef digests e.2.height) :
    { archive with chunkLastRef := index }.RowsBound saves
      (digests.filter (archive.usedAbove e.2.height) ++ exposed) := by
  intro id attempt digest r hattempt hlive hmem hrow
  change index.lookup digest = some r at hrow
  rw [hindex, ChunkIndex.lookup_raise] at hrow
  split at hrow
  next hdigest =>
    obtain rfl := Option.some.inj hrow
    cases hbound : attempt.height.any (fun h : ℕ => h ≤ e.2.height) with
    | true =>
        obtain ⟨h, hh, hle⟩ := Option.any_eq_true _ _ |>.mp hbound
        refine Or.inl ((Option.any_eq_true _ _).mpr ⟨h, hh, decide_eq_true ?_⟩)
        exact (of_decide_eq_true hle).trans (le_max_right ..)
    | false =>
        have hused : archive.usedAbove e.2.height digest = true :=
          Table.any_iff.mpr ⟨id, attempt, hattempt, decide_eq_true ⟨hlive, hmem, hbound⟩⟩
        refine Or.inr ⟨List.mem_append_left _ (List.mem_filter.mpr ⟨hdigest, hused⟩), fun hs => ?_⟩
        rw [hsaves id attempt hs hattempt] at hbound
        cases hbound
  next =>
    refine (hi id attempt digest r hattempt hlive hmem hrow).imp_right fun ⟨hexposed, hnot⟩ => ?_
    exact ⟨List.mem_append_right _ hexposed, hnot⟩

end Archive.RowsBound

namespace BlockStore

variable {db : Db} {source : Source} {c : BlockCapture} {digest : String} {r : ℕ}

/-- Where the rows after a complete capture come from. -/
theorem trackCapture_row (h : (trackCapture (blocksWith db source c)
      (kept db (source.of c) (some c.height) false) source c.blockId c.height).lookup digest
      = some r) :
    (∃ r₀, db.observation.archive.chunkLastRef.lookup digest = some r₀ ∧ r₀ ≤ r ∧
      (digest ∈ extra db source c → lastHeight (blocksWith db source c) ≤ r) ∧
      (digest ∈ savedReferences db source c → c.height ≤ r ∨ (r = r₀ ∧
        isNewest (blocksWith db source c) c.height = true ∧
        below (blocksWith db source c) c.height = none))) ∨
    (digest ∉ db.observation.archive.chunkLastRef ∧ digest ∈ extra db source c ∧
      lastHeight (blocksWith db source c) ≤ r) ∨
    (digest ∉ db.observation.archive.chunkLastRef ∧ digest ∉ extra db source c ∧
      digest ∉ savedReferences db source c ∧ digest ∈ (droppedBy db source c).1 ∧
      r = (droppedBy db source c).2) := by
  change (ChunkIndex.raise (track _ _ _ (savedReferences db source c) _) (extra db source c)
    (lastHeight (blocksWith db source c))).lookup digest = some r at h
  rw [ChunkIndex.lookup_raise] at h
  split at h
  next hextra =>
    have hnot : digest ∉ savedReferences db source c := by
      have hfilter := (List.mem_filter.mp hextra).2
      simpa using hfilter
    obtain rfl := Option.some.inj h
    cases hold : db.observation.archive.chunkLastRef.lookup digest with
    | none =>
        refine Or.inr (Or.inl ⟨?_, hextra, le_max_right ..⟩)
        exact AList.lookup_eq_none.mp hold
    | some r₀ =>
        obtain ⟨r₁, hr₁, hle⟩ := @track_keeps (blocksWith db source c)
          (kept db (source.of c) (some c.height) false) c.height (savedReferences db source c)
          source.latest digest r₀ hold hnot
        refine Or.inl ⟨r₀, rfl, ?_, fun _ => le_max_right .., fun hin => absurd hin hnot⟩
        rw [hr₁, Option.getD_some]
        exact hle.trans (le_max_left ..)
  next hextra =>
    rcases track_row h with ⟨r₀, hr₀, hle, hrefs⟩ | ⟨hnone, hnot, hdropped, hr⟩
    · exact Or.inl ⟨r₀, hr₀, hle, fun hin => absurd hin hextra, hrefs⟩
    · exact Or.inr (Or.inr ⟨AList.lookup_eq_none.mp hnone, hextra, hnot, hdropped, hr⟩)

end BlockStore

theorem Compaction.mem_liveChunks {db : Db} {id : Uuid} {attempt : CaptureAttempt} {digest : String}
    (hattempt : db.observation.archive.captureAttempts.lookup id = some attempt)
    (hlive : attempt.expired = false) (hmem : digest ∈ attempt.references) :
    digest ∈ liveChunks db := by
  refine List.mem_flatMap.mpr ⟨⟨id, attempt⟩, Table.mem_entries_iff.mpr hattempt, ?_⟩
  rw [CaptureAttempt.live, if_neg (by rw [hlive]; exact Bool.false_ne_true)]
  exact hmem

/-- Under a floor that bounds it, a capture protects its chunks. -/
theorem Retention.protected_of_bound {db : Db} {plan : Retention.Plan} {id : Uuid}
    {attempt : CaptureAttempt}
    {digest : String} {r : ℕ}
    (hattempt : db.observation.archive.captureAttempts.lookup id = some attempt)
    (hlive : attempt.expired = false) (hmem : digest ∈ attempt.references)
    (hbound : attempt.height.any (fun h : ℕ => h ≤ r) = true) (hle : (r : ℤ) ≤ plan.blockHeight) :
    digest ∈ Retention.protectedChunks db plan := by
  obtain ⟨height, hheight, hr⟩ := Option.any_eq_true _ _ |>.mp hbound
  refine List.mem_flatMap.mpr ⟨⟨id, attempt⟩, List.mem_filter.mpr
    ⟨Table.mem_entries_iff.mpr hattempt, decide_eq_true ⟨hlive, ?_⟩⟩, hmem⟩
  rw [hheight, Option.any_some, decide_eq_true_iff]
  exact le_trans (by exact_mod_cast of_decide_eq_true hr) hle

/-- A chunk that an unexpired capture uses stays, unless a retention run removes it. -/
theorem Archive.Changes.stored {held : Held} {db : Db} {a : ObservationAction} {archive : Archive}
    (h : Changes held db a archive) {id : Uuid} {attempt : CaptureAttempt} {digest : String}
    (hattempt : archive.captureAttempts.lookup id = some attempt) (hlive : attempt.expired = false)
    (hmem : digest ∈ attempt.references)
    (hstored : db.observation.archive.captureAttempts.lookup id = some attempt →
      digest ∈ db.observation.archive.observationChunks)
    (hremoved : db.observation.archive.captureAttempts.lookup id = some attempt →
      a = .removeChunks → ∀ plan ∈ held.targets, ∀ r,
      db.observation.archive.chunkLastRef.lookup digest = some r → (r : ℤ) ≤ plan.blockHeight →
      digest ∈ Retention.protectedChunks db plan) : digest ∈ archive.observationChunks := by
  have hkept : ∀ {source : Source} {height : Option ℕ} {failed : Bool},
      (kept db source height failed).captureAttempts.lookup id = some attempt →
      digest ∈ (kept db source height failed).observationChunks := by
    intro source height failed hlookup
    rw [kept_attempts] at hlookup
    show digest ∈ db.observation.archive.observationChunks ++
      source.chunks.filter (· ∉ db.observation.archive.observationChunks)
    rcases Table.lookup_insert_cases hlookup with ⟨-, rfl⟩ | ⟨-, hold⟩
    · by_cases hin : digest ∈ db.observation.archive.observationChunks
      · exact List.mem_append_left _ hin
      · exact List.mem_append_right _ (List.mem_filter.mpr ⟨hmem, decide_eq_true hin⟩)
    · exact List.mem_append_left _ (hstored hold)
  cases h with
  | incomplete => exact hkept hattempt
  | conflicting => exact hkept hattempt
  | saved => exact hkept hattempt
  | expired => exact hstored (Retention.putExpired_live hattempt hlive)
  | removed hplan hdigests =>
      refine List.mem_filter.mpr ⟨hstored hattempt, decide_eq_true fun hdigest => ?_⟩
      obtain ⟨⟨r, hr, hle⟩, hnot⟩ := hdigests digest hdigest
      exact hnot (hremoved hattempt rfl _ hplan r hr hle)
  | collected hdigests =>
      refine List.mem_filter.mpr ⟨hstored hattempt, decide_eq_true fun hdigest => ?_⟩
      exact hdigests digest hdigest (Compaction.mem_liveChunks hattempt hlive hmem)
  | _ => exact hstored hattempt

/-! ## Every step -/

namespace Sys

variable {s s' : Sys} {a : Action} {exposed : List String}

/-- Only a capture that saves a block becomes one of a saved block. -/
theorem Step.saves_back (hs : s.Lawful) (h : Step s a s') {id : Uuid}
    (hid : id ∈ s.db.observation.archive.captureAttempts) (hsaves : s'.Saves id) : s.Saves id := by
  obtain ⟨blockId, b', hb', rfl⟩ := hsaves
  rcases h.block_back hs hb' with ⟨b, hb, hx⟩ | ⟨source, c, seen, rfl, -, -, -, rfl, -⟩
  · exact ⟨blockId, b, hb, hx.attemptId.symm⟩
  · exact absurd hid h.record_fresh

/-- Behind a saved block that is captured again is its own capture. -/
theorem Step.savedReferences_eq {source : Source} {c : BlockCapture} {seen : Option ℕ}
    (h : Step s (.observe (.record source (some c) seen)) s') {b : ObservedBlock}
    {attempt : CaptureAttempt}
    (hb : (blocksWith s.db source c).lookup c.blockId = some b)
    (hattempt : s.db.observation.archive.captureAttempts.lookup b.attemptId = some attempt) :
    savedReferences s.db source c = attempt.live := by
  have hne : b.attemptId ≠ source.attemptId := by
    intro heq
    rw [heq] at hattempt
    exact h.record_fresh (AList.lookup_isSome.mp (Option.isSome_of_eq_some hattempt))
  rw [savedReferences, hb, Option.elim, manifestReferences, kept_attempts,
    AList.lookup_insert_ne (show b.attemptId ≠ (source.of c).attemptId from hne), hattempt,
    Option.elim]

section

variable {source : Source} {c : BlockCapture} {seen : Option ℕ}
  (hr : Reachable Any s) (h : Step s (.observe (.record source (some c) seen)) s')
  (hnone : conflictsWith s.db c = [])

include h hnone

theorem Step.record_saves :
    s'.db.observation.archive = { kept s.db (source.of c) (some c.height) false with
      chunkLastRef := trackCapture (blocksWith s.db source c)
        (kept s.db (source.of c) (some c.height) false) source c.blockId c.height } ∧
    s'.db.observation.blocks = blocksWith s.db source c := by
  cases h with
  | observe h =>
      cases h with
      | record h => exact record_archive h hnone

omit h in
/-- At the height of a complete capture without conflicts there is no other block. -/
theorem same_block {id : String} {b : ObservedBlock}
    (hb : s.db.observation.blocks.lookup id = some b) (hheight : b.height = c.height) :
    id = c.blockId := by
  have hnot := Table.any_eq_false.mp (conflictsWith_eq_nil hnone).1 id b hb
  by_contra hne
  simp [hheight, hne] at hnot

include hr

/-- Rows that a complete capture writes bound the captures of saved blocks. -/
theorem Step.written_bounds {id : Uuid} {attempt : CaptureAttempt} {digest : String} {r : ℕ}
    (hattempt : s.db.observation.archive.captureAttempts.lookup id = some attempt)
    (hlive : attempt.expired = false) (hmem : digest ∈ attempt.references) (hsaves : s'.Saves id)
    (hwritten : lastHeight (blocksWith s.db source c) ≤ r ∨
      (digest ∉ savedReferences s.db source c ∧ digest ∈ (droppedBy s.db source c).1 ∧
        r = (droppedBy s.db source c).2)) :
    attempt.height.any (fun h : ℕ => h ≤ r) = true := by
  obtain ⟨harchive, hblocks⟩ := h.record_saves hnone
  have hid := AList.lookup_isSome.mp (Option.isSome_of_eq_some hattempt)
  obtain ⟨blockId, b, hb, rfl⟩ := h.saves_back hr.lawful hid hsaves
  obtain ⟨attempt', hattempt', hheight, -⟩ := hr.captured hb
  obtain rfl := Option.some.inj (hattempt.symm.trans hattempt')
  obtain ⟨b', hb', hx⟩ := h.blocks_extend hr.lawful hb
  rw [hblocks] at hb'
  rw [hheight, Option.any_some, decide_eq_true_iff, ← hx.height]
  rcases hwritten with hlast | ⟨hnot, hdropped, rfl⟩
  · obtain ⟨e, he, hle⟩ := highest_spec hb'
    rw [lastHeight, he] at hlast
    exact hle.trans hlast
  · unfold droppedBy dropped at hdropped ⊢
    split at hdropped
    next hnewest =>
      rw [if_pos hnewest]
      cases hbelow : below (blocksWith s.db source c) c.height with
      | none =>
          rw [hbelow] at hdropped
          cases hdropped
      | some e =>
          rcases (isNewest_spec hnewest hb').lt_or_eq with hlt | heq
          · exact below_spec hbelow hb' hlt
          · -- The block itself was captured again; its chunks are not dropped.
            have hblock := same_block hnone hb (by rw [← hx.height, heq])
            refine absurd ?_ hnot
            rw [hblock] at hb'
            rw [h.savedReferences_eq hb' (by rw [hx.attemptId]; exact hattempt),
              CaptureAttempt.live, if_neg (by rw [hlive]; exact Bool.false_ne_true)]
            exact hmem
    next => cases hdropped

/-- The capture that a complete record keeps is bounded, too; unless it brings the id of a
saved block with another height. -/
theorem Step.new_bounds (hi : s.db.observation.archive.RowsBound s.Saves exposed)
    (hstarted : ∀ digest r, s.db.observation.archive.chunkLastRef.lookup digest = some r →
      ∃ id b, s.db.observation.blocks.lookup id = some b)
    {digest : String} {r : ℕ} (hmem : digest ∈ source.chunks)
    (hrow : s'.db.observation.archive.chunkLastRef.lookup digest = some r) : c.height ≤ r ∨
      (c.blockId ∈ s.db.observation.blocks ∧
        ((blocksWith s.db source c).lookup c.blockId).any (fun b => b.height ≠ c.height) = true) := by
  obtain ⟨harchive, hblocks⟩ := h.record_saves hnone
  rw [harchive] at hrow
  -- The block is saved, now or before.
  obtain ⟨b, hb, hfresh⟩ : ∃ b, (blocksWith s.db source c).lookup c.blockId = some b ∧
      (c.blockId ∉ s.db.observation.blocks → b.height = c.height) := by
    unfold blocksWith
    split
    next hold =>
      obtain ⟨b, hb⟩ := Option.isSome_iff_exists.mp (AList.lookup_isSome.mpr hold)
      exact ⟨b, hb, fun hnot => absurd hold hnot⟩
    next => exact ⟨_, AList.lookup_insert _, fun _ => rfl⟩
  by_cases hheight : b.height = c.height
  · refine Or.inl ?_
    have hlast : c.height ≤ lastHeight (blocksWith s.db source c) := by
      obtain ⟨e, he, hle⟩ := highest_spec hb
      rw [lastHeight, he, ← hheight]
      exact hle
    rcases trackCapture_row hrow with ⟨r₀, hr₀, -, hextra, hsaved⟩ | ⟨-, -, hle⟩ | ⟨-, hextra, hsaved, -⟩
    · by_cases hin : digest ∈ savedReferences s.db source c
      · rcases hsaved hin with hle | ⟨rfl, hnewest, hbelow⟩
        · exact hle
        by_cases hold : c.blockId ∈ s.db.observation.blocks
        · -- The row bounds the capture behind the saved block.
          have hb₀ : s.db.observation.blocks.lookup c.blockId = some b := by
            rwa [blocksWith, if_pos hold] at hb
          obtain ⟨attempt, hattempt, hcaptured, -⟩ := hr.captured hb₀
          rw [h.savedReferences_eq hb hattempt, CaptureAttempt.live] at hin
          cases hexpired : attempt.expired with
          | true =>
              rw [if_pos hexpired] at hin
              cases hin
          | false =>
              rw [if_neg (by rw [hexpired]; exact Bool.false_ne_true)] at hin
              rcases hi b.attemptId attempt digest r hattempt hexpired hin hr₀ with hle | ⟨-, hnot⟩
              · rw [hcaptured, Option.any_some, decide_eq_true_iff, hheight] at hle
                exact hle
              · exact absurd ⟨c.blockId, b, hb₀, rfl⟩ hnot
        · -- The first block of all; there are no rows yet.
          obtain ⟨id, b₁, hb₁⟩ := hstarted digest r hr₀
          obtain ⟨b₁', hb₁', hx⟩ := h.blocks_extend hr.lawful hb₁
          rw [hblocks] at hb₁'
          have heq : b₁.height = c.height := by
            rw [← hx.height]
            exact le_antisymm (isNewest_spec hnewest hb₁') (below_eq_none hbelow hb₁')
          refine absurd (AList.lookup_isSome.mp (Option.isSome_of_eq_some hb₁)) ?_
          rw [same_block hnone hb₁ heq]
          exact hold
      · exact hlast.trans (hextra (List.mem_filter.mpr ⟨hmem, by simpa using hin⟩))
    · exact hlast.trans hle
    · exact absurd (List.mem_filter.mpr ⟨hmem, by simpa using hsaved⟩) hextra
  · refine Or.inr ⟨?_, by simpa [hb] using hheight⟩
    by_contra hnot
    exact hheight (hfresh hnot)

/-- After a complete record. -/
theorem Step.saved_bounds (hi : s.db.observation.archive.RowsBound s.Saves exposed)
    (hstarted : ∀ digest r, s.db.observation.archive.chunkLastRef.lookup digest = some r →
      ∃ id b, s.db.observation.blocks.lookup id = some b) :
    s'.db.observation.archive.RowsBound s'.Saves
      (s.exposes (.observe (.record source (some c) seen)) ++ exposed) := by
  intro id attempt digest r hattempt hlive hmem hrow
  have hexposes : s.exposes (.observe (.record source (some c) seen))
      = (if ((blocksWith s.db source c).lookup c.blockId).any (fun b => b.height ≠ c.height) = true
          then source.chunks else []) ++
        (extra s.db source c).filter (fun digest =>
          digest ∉ s.db.observation.archive.chunkLastRef ∧
            s.db.observation.archive.usedAbove (lastHeight (blocksWith s.db source c)) digest = true) ++
        (droppedBy s.db source c).1.filter fun digest =>
          digest ∉ s.db.observation.archive.chunkLastRef ∧ digest ∉ extra s.db source c ∧
            s.db.observation.archive.usedAbove (droppedBy s.db source c).2 digest = true := by
    show ite _ _ _ = _
    rw [if_neg (not_not.mpr hnone)]
  rw [hexposes]
  obtain ⟨harchive, -⟩ := h.record_saves hnone
  have hrow' := hrow
  rw [harchive] at hattempt hrow
  change (kept s.db (source.of c) (some c.height) false).captureAttempts.lookup id = _ at hattempt
  rw [kept_attempts] at hattempt
  rcases Table.lookup_insert_cases hattempt with ⟨rfl, rfl⟩ | ⟨-, hold⟩
  · -- The capture at hand.
    rcases h.new_bounds hr hnone hi hstarted hmem hrow' with hle | ⟨hknown, hother⟩
    · exact Or.inl (decide_eq_true hle)
    · refine Or.inr ⟨?_, ?_⟩
      · rw [if_pos hother]
        exact List.mem_append_left _ (List.mem_append_left _ (List.mem_append_left _ hmem))
      · rintro ⟨blockId, b', hb', hid⟩
        rcases h.block_back hr.lawful hb' with ⟨b, hb, hx⟩ | ⟨_, _, _, ha, -, hfresh, -⟩
        · obtain ⟨attempt, hattempt, -⟩ := hr.captured hb
          rw [← hx.attemptId, hid] at hattempt
          exact h.record_fresh (AList.lookup_isSome.mp (Option.isSome_of_eq_some hattempt))
        · cases ha
          exact hfresh hknown
  · -- A capture from before.
    have hid := AList.lookup_isSome.mp (Option.isSome_of_eq_some hold)
    have hexposed : ∀ {height : ℕ}, height ≤ r →
        (s'.Saves id → attempt.height.any (fun h : ℕ => h ≤ height) = true) →
        attempt.height.any (fun h : ℕ => h ≤ r) = true ∨
          (s.db.observation.archive.usedAbove height digest = true ∧ ¬ s'.Saves id) := by
      intro height hle hsaves
      cases hbound : attempt.height.any (fun h : ℕ => h ≤ height) with
      | true =>
          obtain ⟨x, hx, hxle⟩ := Option.any_eq_true _ _ |>.mp hbound
          exact Or.inl ((Option.any_eq_true _ _).mpr
            ⟨x, hx, decide_eq_true ((of_decide_eq_true hxle).trans hle)⟩)
      | false =>
          refine Or.inr ⟨?_, fun hs => ?_⟩
          · exact Table.any_iff.mpr ⟨id, attempt, hold, decide_eq_true ⟨hlive, hmem, hbound⟩⟩
          · rw [hsaves hs] at hbound
            cases hbound
    rcases trackCapture_row hrow with ⟨r₀, hr₀, hle, -⟩ | ⟨hnorow, hextra, hle⟩ |
      ⟨hnorow, hextra, hsaved, hdropped, rfl⟩
    · rcases hi id attempt digest r₀ hold hlive hmem hr₀ with hbound | ⟨hexp, hnot⟩
      · obtain ⟨x, hx, hxle⟩ := Option.any_eq_true _ _ |>.mp hbound
        exact Or.inl ((Option.any_eq_true _ _).mpr
          ⟨x, hx, decide_eq_true ((of_decide_eq_true hxle).trans hle)⟩)
      · exact Or.inr ⟨List.mem_append_right _ hexp, fun hs => hnot (h.saves_back hr.lawful hid hs)⟩
    · refine (hexposed hle fun hs => h.written_bounds hr hnone hold hlive hmem hs
        (Or.inl le_rfl)).imp_right fun ⟨hused, hnot⟩ => ⟨?_, hnot⟩
      exact List.mem_append_left _ (List.mem_append_left _ (List.mem_append_right _
        (List.mem_filter.mpr ⟨hextra, decide_eq_true ⟨hnorow, hused⟩⟩)))
    · refine (hexposed le_rfl fun hs => h.written_bounds hr hnone hold hlive hmem hs
        (Or.inr ⟨hsaved, hdropped, rfl⟩)).imp_right fun ⟨hused, hnot⟩ => ⟨?_, hnot⟩
      exact List.mem_append_left _ (List.mem_append_right _
        (List.mem_filter.mpr ⟨hdropped, decide_eq_true ⟨hnorow, hextra, hused⟩⟩))

end

/-- Rows bound captures, and there are rows only where there are blocks. -/
structure RowsKept (s : Sys) (exposed : List String) : Prop where
  rows : s.db.observation.archive.RowsBound s.Saves exposed
  started : ∀ digest r, s.db.observation.archive.chunkLastRef.lookup digest = some r →
    ∃ id b, s.db.observation.blocks.lookup id = some b

/-- After a step that saves no block. -/
theorem Step.other_bounds (hr : Reachable Any s) (hi : RowsKept s exposed) {o : ObservationAction}
    (h : Step s (.observe o) s')
    (hother : ∀ source c seen, o = .record source (some c) seen → conflictsWith s.db c ≠ []) :
    s'.db.observation.archive.RowsBound s.Saves (s.exposes (.observe o) ++ exposed) ∧
      ∀ digest r, s'.db.observation.archive.chunkLastRef.lookup digest = some r →
        ∃ id b, s.db.observation.blocks.lookup id = some b := by
  have hkeep : ∀ {archive : Archive}, archive.RowsBound s.Saves exposed →
      archive.RowsBound s.Saves (s.exposes (.observe o) ++ exposed) :=
    fun hrows => hrows.mono (List.subset_append_right ..) fun _ _ hs => hs
  have hunsaved : ∀ {source : Source}, source.attemptId ∉ s.db.observation.archive.captureAttempts →
      ¬ s.Saves source.attemptId := by
    rintro source hfresh ⟨blockId, b, hb, hid⟩
    obtain ⟨attempt, hattempt, -⟩ := hr.captured hb
    rw [hid] at hattempt
    exact hfresh (AList.lookup_isSome.mp (Option.isSome_of_eq_some hattempt))
  cases h with
  | @observe db db' held _ h =>
      have hchange := h.changes
      change db'.observation.archive.RowsBound _ _ ∧ ∀ digest r,
        db'.observation.archive.chunkLastRef.lookup digest = some r → _
      generalize db'.observation.archive = archive at hchange ⊢
      cases hchange with
      | same => exact ⟨hkeep hi.rows, hi.started⟩
      | incomplete hfresh => exact ⟨hi.rows.kept (hunsaved hfresh), hi.started⟩
      | @conflicting source c seen hfresh hconflict =>
          refine ⟨?_, hi.started⟩
          have hexposes : Sys.exposes ⟨db, held⟩ (.observe (.record source (some c) seen))
              = source.chunks.filter (db.observation.archive.rowBelow (some c.height)) :=
            if_pos hconflict
          rw [hexposes]
          exact @Archive.RowsBound.kept _ _ _ (source.of c) _ _ hi.rows (hunsaved hfresh)
      | @saved source c seen _ hnone => exact absurd hnone (hother source c seen rfl)
      | copied => exact ⟨hkeep hi.rows, hi.started⟩
      | reconciled => exact ⟨hkeep hi.rows, hi.started⟩
      | floors => exact ⟨hkeep hi.rows, hi.started⟩
      | expired =>
          exact ⟨hkeep (hi.rows.shrink (fun _ _ => Retention.putExpired_live) fun _ _ h => h),
            hi.started⟩
      | removed =>
          refine ⟨hkeep (hi.rows.shrink (fun _ _ h _ => h) fun _ _ => ChunkIndex.lookup_of_drop), ?_⟩
          exact fun digest r hrow => hi.started digest r (ChunkIndex.lookup_of_drop hrow)
      | collected =>
          refine ⟨hkeep (hi.rows.shrink (fun _ _ h _ => h) fun _ _ => ChunkIndex.lookup_of_drop), ?_⟩
          exact fun digest r hrow => hi.started digest r (ChunkIndex.lookup_of_drop hrow)
      | copiesExpired => exact ⟨hkeep hi.rows, hi.started⟩
      | @indexed newestId newest hhighest =>
          refine ⟨?_, fun _ _ _ => ⟨newestId, newest, highest_mem hhighest⟩⟩
          have hexposes : Sys.exposes ⟨db, held⟩ (.observe .initializeChunkIndex)
              = (db.observation.archive.observationChunks.filter
                  (· ∉ manifestReferences db.observation.archive newest)).filter
                (db.observation.archive.usedAbove newest.height) := by
            show Option.elim _ _ _ = _
            rw [hhighest]
            rfl
          rw [hexposes]
          refine Archive.RowsBound.indexed (e := (newestId, newest)) hi.rows ?_ rfl
          rintro id attempt ⟨blockId, b, hb, rfl⟩ hattempt
          obtain ⟨attempt', hattempt', hheight, -⟩ := hr.captured hb
          obtain rfl := Option.some.inj (hattempt.symm.trans hattempt')
          obtain ⟨e, he, hle⟩ := highest_spec hb
          obtain rfl := Option.some.inj (hhighest.symm.trans he)
          rw [hheight]
          exact decide_eq_true hle

theorem Step.rowsKept (hr : Reachable Any s) (hi : RowsKept s exposed) (h : Step s a s') :
    RowsKept s' (s.exposes a ++ exposed) := by
  have hsaves : ∀ id, id ∈ s.db.observation.archive.captureAttempts → s'.Saves id → s.Saves id :=
    fun id => h.saves_back hr.lawful
  have hblocks : ∀ {id b}, s.db.observation.blocks.lookup id = some b →
      ∃ id b, s'.db.observation.blocks.lookup id = some b := by
    intro id b hb
    obtain ⟨b', hb', -⟩ := h.blocks_extend hr.lawful hb
    exact ⟨id, b', hb'⟩
  by_cases ho : ∃ o, a = .observe o
  · obtain ⟨o, rfl⟩ := ho
    by_cases hsave : ∃ source c seen, o = .record source (some c) seen ∧ conflictsWith s.db c = []
    · obtain ⟨source, c, seen, rfl, hnone⟩ := hsave
      refine ⟨h.saved_bounds hr hnone hi.rows hi.started, fun digest r _ => ?_⟩
      rw [(h.record_saves hnone).2]
      unfold blocksWith
      split
      next hold =>
        obtain ⟨b, hb⟩ := Option.isSome_iff_exists.mp (AList.lookup_isSome.mpr hold)
        exact ⟨_, b, hb⟩
      next => exact ⟨_, _, AList.lookup_insert _⟩
    · obtain ⟨hrows, hstarted⟩ := h.other_bounds hr hi fun source c seen ho hnone =>
        hsave ⟨source, c, seen, ho, hnone⟩
      refine ⟨hrows.mono (fun _ h => h) ?_, fun digest r hrow => ?_⟩
      · rintro id - ⟨blockId, b', hb', rfl⟩
        rcases h.block_back hr.lawful hb' with ⟨b, hb, hx⟩ | ⟨source, c, seen, ha, -, -, hnone, -⟩
        · exact ⟨blockId, b, hb, hx.attemptId.symm⟩
        · cases ha
          exact absurd ⟨source, c, seen, rfl, hnone⟩ hsave
      · obtain ⟨id, b, hb⟩ := hstarted digest r hrow
        exact hblocks hb
  · have hsame := h.observation hr.lawful fun o ha => ho ⟨o, ha⟩
    refine ⟨?_, fun digest r hrow => ?_⟩
    · rw [hsame]
      exact hi.rows.mono (List.subset_append_right ..) hsaves
    · rw [hsame] at hrow
      obtain ⟨id, b, hb⟩ := hi.started digest r hrow
      exact hblocks hb

/-- A step keeps the chunks of an unexpired capture that is bounded by the rows. -/
theorem Step.stored (hs : s.Lawful) (h : Step s a s') {id : Uuid} {attempt : CaptureAttempt}
    {digest : String}
    (hattempt : s'.db.observation.archive.captureAttempts.lookup id = some attempt)
    (hlive : attempt.expired = false) (hmem : digest ∈ attempt.references)
    (hstored : s.db.observation.archive.captureAttempts.lookup id = some attempt →
      digest ∈ s.db.observation.archive.observationChunks)
    (hbound : ∀ r, s.db.observation.archive.captureAttempts.lookup id = some attempt →
      s.db.observation.archive.chunkLastRef.lookup digest = some r →
      attempt.height.any (fun h : ℕ => h ≤ r) = true ∨
        (a = .observe .removeChunks → ∀ plan ∈ s.held.targets, (r : ℤ) ≤ plan.blockHeight →
          digest ∈ Retention.protectedChunks s.db plan)) :
    digest ∈ s'.db.observation.archive.observationChunks := by
  by_cases ho : ∃ o, a = .observe o
  · obtain ⟨o, rfl⟩ := ho
    cases h with
    | observe h =>
        refine h.changes.stored hattempt hlive hmem hstored fun hold ho plan hplan r hr hle => ?_
        rcases hbound r hold hr with hbound | hremoved
        · exact Retention.protected_of_bound hold hlive hmem hbound hle
        · exact hremoved (by rw [ho]) plan hplan hle
  · rw [h.observation hs fun o ha => ho ⟨o, ha⟩] at hattempt ⊢
    exact hstored hattempt

theorem Initial.rowsKept (h : s.Initial) : RowsKept s [] where
  rows := by
    intro id attempt digest r hattempt
    rw [h.archive] at hattempt
    cases hattempt
  started digest r hrow := by
    rw [h.archive] at hrow
    cases hrow

end Sys

/-- In every run in which no exposed chunk is removed under a floor while an unexpired
capture uses it, every chunk that an unexpired capture refers to is stored. -/
theorem captures_keep_chunks {s₀ s : Sys} {exposed : List String} (h₀ : s₀.Initial)
    (h : Leads (Watched Sys.Step Sys.exposes) Sys.Unexposed (s₀, []) (s, exposed)) :
    ∀ id attempt, s.db.observation.archive.captureAttempts.lookup id = some attempt →
      ∀ digest ∈ attempt.live, digest ∈ s.db.observation.archive.observationChunks := by
  suffices hstored : s.RowsKept exposed ∧ ∀ id attempt digest,
      s.db.observation.archive.captureAttempts.lookup id = some attempt →
      attempt.expired = false → digest ∈ attempt.references →
      digest ∈ s.db.observation.archive.observationChunks by
    intro id attempt hattempt digest hmem
    cases hexpired : attempt.expired with
    | true =>
        rw [CaptureAttempt.live, if_pos hexpired] at hmem
        cases hmem
    | false =>
        rw [CaptureAttempt.live, if_neg (by rw [hexpired]; exact Bool.false_ne_true)] at hmem
        exact hstored.2 id attempt digest hattempt hexpired hmem
  refine (h.watched (I := fun s exposed => s.RowsKept exposed ∧ ∀ id attempt digest,
    s.db.observation.archive.captureAttempts.lookup id = some attempt →
    attempt.expired = false → digest ∈ attempt.references →
    digest ∈ s.db.observation.archive.observationChunks) ⟨h₀.rowsKept, ?_⟩ ?_).2
  · intro id attempt digest hattempt
    rw [h₀.archive] at hattempt
    cases hattempt
  · rintro s exposed a s' hrun ha ⟨hrows, hstored⟩ hstep
    have hr : Sys.Reachable Sys.Any s := ⟨s₀, h₀, hrun⟩
    refine ⟨hstep.rowsKept hr hrows, fun id attempt digest hattempt hlive hmem => ?_⟩
    refine hstep.stored hr.lawful hattempt hlive hmem
      (fun hold => hstored id attempt digest hold hlive hmem) fun r hold hrow => ?_
    refine (hrows.rows id attempt digest r hold hlive hmem hrow).imp_right fun hexposed => ?_
    intro haction plan hplan hle
    by_contra hnot
    refine ha haction plan hplan digest hexposed.1 ?_ hnot (Compaction.mem_liveChunks hold hlive hmem)
    rw [hrow, Option.any_some, decide_eq_true_iff]
    exact hle

/-! ## A chunk that comes back

A chunk that the newest block does not use any more has a row at its last use.  Then an
incomplete capture brings the chunk again, and leaves the row where it is. -/

namespace ChunkReuse

open RetentionDay

def first : BlockCapture :=
  { FirstDay.block with blocksPerRound := 1 }

def second : BlockCapture :=
  { first with blockId := "block-1", height := 1, previousId := "block-0", round := 2 }

/-- The head of the chain, four rounds on. -/
def head : BlockCapture :=
  { first with blockId := "block-4", height := 4, previousId := "block-3", round := 5 }

/-- A run passes the round of the first block and expires its capture. -/
def expiry (between : List Handed) : Result (Retention.Plan × Sys) := do
  let (plan, s) ← morning (source "block-0" ["a"], some first, none)
    ((source "block-1" ["b"], some second, none) :: between ++
      [(source "block-4" ["b"], some head, none)])
  let db ← Retention.expireCaptures s.db plan ["block-0"]
  return (plan, ⟨db, s.held.observe .expireCaptures s.db db⟩)

/-- The run goes on and removes the chunk of the first block. -/
def removal (between : List Handed) : Result Sys := do
  let (plan, s) ← expiry between
  let db ← Retention.removeChunks s.db plan ["a"]
  return ⟨db, s.held.observe .removeChunks s.db db⟩

/-- Nothing comes in between. -/
def noon : Sys :=
  (removal []).toOption.getD ⟨migrated, Held.empty⟩

/-- The chunk comes back with an incomplete capture. -/
def evening : Sys :=
  (removal [(source "incomplete" ["a"], none, some 2)]).toOption.getD ⟨migrated, Held.empty⟩

theorem quiet : Quiet Sys.Unexposed :=
  fun _ _ _ _ h₃ h => absurd h h₃

theorem reached_expiry {between : List Handed} {plan : Retention.Plan} {s : Sys}
    (hrun : expiry between = .ok (plan, s)) :
    Reached Sys.exposes Sys.Unexposed s ∧ plan ∈ s.held.targets := by
  simp only [expiry, bind_eq_ok, Prod.exists, pure_eq_ok, Prod.mk.injEq] at hrun
  obtain ⟨plan, s, hs, db, hdb, rfl, rfl⟩ := hrun
  obtain ⟨hmorning, hplan, -⟩ := Reached.morning quiet hs
  refine ⟨hmorning.step (.observe (.expireCaptures hplan hdb)) fun _ => ?_, hplan⟩
  intro h
  cases h

/-- At noon the newest capture is unexpired and has its chunks. -/
theorem captures_keep_chunks_noon : ∃ attempt,
    noon.db.observation.archive.captureAttempts.lookup "block-4" = some attempt ∧
      "b" ∈ attempt.live ∧
      ∀ digest ∈ attempt.live, digest ∈ noon.db.observation.archive.observationChunks := by
  have hcapture : (noon.db.observation.archive.captureAttempts.lookup "block-4").any
      (fun attempt => "b" ∈ attempt.live) = true := by decide +kernel
  obtain ⟨attempt, hattempt, hlive⟩ := Option.any_eq_true _ _ |>.mp hcapture
  refine ⟨attempt, hattempt, of_decide_eq_true hlive, ?_⟩
  have hrun : removal [] = .ok noon := eq_ok_getD (by decide +kernel)
  simp only [removal, bind_eq_ok, Prod.exists, pure_eq_ok] at hrun
  obtain ⟨plan, s, hs, db, hdb, hend⟩ := hrun
  obtain ⟨⟨exposed, hexpired⟩, hplan⟩ := reached_expiry hs
  have hremoves : Sys.Step s (.observe .removeChunks) noon := by
    rw [← hend]
    exact .observe (.removeChunks hplan hdb)
  have hunused : ((expiry []).toOption.all fun e =>
      e.2.db.observation.archive.chunkLastRef.any (fun digest _ =>
        digest ∈ Compaction.liveChunks e.2.db) = false) = true := by decide +kernel
  rw [hs] at hunused
  refine captures_keep_chunks Sys.initial_migrated (hexpired.step (fun _ => ?_) (.step hremoves))
    "block-4" attempt hattempt
  intro plan _ digest _ hrow _ hlive
  obtain ⟨r, hr, -⟩ := Option.any_eq_true _ _ |>.mp hrow
  have hnot := Table.any_eq_false.mp (of_decide_eq_true hunused) digest r hr
  exact of_decide_eq_false hnot hlive

/-- In the evening the incomplete capture has lost its chunk. -/
theorem captures_keep_chunks_fails : Sys.Reachable Sys.Any evening ∧
    ∃ id attempt, evening.db.observation.archive.captureAttempts.lookup id = some attempt ∧
      ∃ digest ∈ attempt.live, digest ∉ evening.db.observation.archive.observationChunks := by
  have hrun : removal [(source "incomplete" ["a"], none, some 2)] = .ok evening :=
    eq_ok_getD (by decide +kernel)
  refine ⟨?_, ?_⟩
  · simp only [removal, bind_eq_ok, Prod.exists, pure_eq_ok] at hrun
    obtain ⟨plan, s, hs, db, hdb, hend⟩ := hrun
    obtain ⟨hexpired, hplan⟩ := reached_expiry hs
    rw [← hend]
    exact hexpired.reachable.step trivial (.observe (.removeChunks hplan hdb))
  · have hfacts : (evening.db.observation.archive.captureAttempts.lookup "incomplete").any
        (fun attempt => "a" ∈ attempt.live ∧
          "a" ∉ evening.db.observation.archive.observationChunks) = true := by decide +kernel
    obtain ⟨attempt, hattempt, hfacts⟩ := Option.any_eq_true _ _ |>.mp hfacts
    exact ⟨"incomplete", attempt, hattempt, "a", of_decide_eq_true hfacts⟩

end ChunkReuse

end TigPool
