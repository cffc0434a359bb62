/-
# `TigPool.Cursor` — the contiguous cursor means what it says

The cursor is pulled back by conflicts and pushed on by records and resolutions, each
time from its stored value.  What carries the argument is that this value is always
itself exact: the heights up to it are saved and clear, the next one is not.  The walk
of `_advance` then has to look only upwards.
-/
import TigPool.Blocks

namespace TigPool

open Basis

namespace Observation

/-- The block saved under an id, at a height. -/
def SavedAt (o : Observation) (height : ℤ) (id : String) (b : ObservedBlock) : Prop :=
  o.blocks.lookup id = some b ∧ (b.height : ℤ) = height

def Unresolved (o : Observation) (height : ℤ) : Prop :=
  ∃ alert ∈ o.conflicts, alert.resolved = false ∧ (alert.height : ℤ) = height

/-- The height is saved and free of conflicts. -/
def Clear (o : Observation) (height : ℤ) : Prop :=
  (∃ id b, o.SavedAt height id b) ∧ ¬ o.Unresolved height

/-- The height is saved, free of conflicts, and its block names the one before it; the
first height has none before it. -/
def Counts (o : Observation) (launch : ℕ) (height : ℤ) : Prop :=
  ¬ o.Unresolved height ∧ ∃ id b, o.SavedAt height id b ∧
    ((launch : ℤ) < height → ∃ b', o.SavedAt (height - 1) b.previousId b')

/-- No two blocks share a height, and neighbours are linked. -/
structure Linked (o : Observation) : Prop where
  unique : ∀ {height id id' b b'}, o.SavedAt height id b → o.SavedAt height id' b' → id = id'
  linked : ∀ {height id id' b b'}, o.SavedAt height id b → o.SavedAt (height + 1) id' b' →
    b'.previousId = id

/-- The heights from the launch up to this one are clear. -/
structure ClearTo (o : Observation) (launch : ℕ) (height : ℤ) : Prop where
  launched : (launch : ℤ) - 1 ≤ height
  clear : ∀ x, (launch : ℤ) ≤ x → x ≤ height → o.Clear x

/-- The cursor stands at the last height up to which all is clear. -/
def CursorExact (o : Observation) : Prop :=
  ∀ stream, o.stream = some stream → o.ClearTo stream.launchHeight stream.contiguousHeight ∧
    ¬ o.Clear (stream.contiguousHeight + 1)

/-- What holds of the saved blocks and the cursor at any time. -/
structure Exact (o : Observation) : Prop where
  linked : o.Linked
  started : o.stream = none → ∀ id, o.blocks.lookup id = none
  cursor : o.CursorExact

variable {o o' : Observation} {launch : ℕ} {height : ℤ}

theorem Linked.congr (h : o.Linked) (hblocks : o'.blocks = o.blocks) : o'.Linked where
  unique := by
    simp only [SavedAt, hblocks]
    exact h.unique
  linked := by
    simp only [SavedAt, hblocks]
    exact h.linked

/-- Where neighbours are linked, a height counts if it and the one before are clear. -/
theorem Linked.counts (h : o.Linked) (hto : o.ClearTo launch height) (hl : (launch : ℤ) ≤ height) :
    o.Counts launch height := by
  obtain ⟨⟨id, b, hb⟩, hclear⟩ := hto.clear height hl le_rfl
  refine ⟨hclear, id, b, hb, fun hlt => ?_⟩
  obtain ⟨⟨id', b', hb'⟩, -⟩ := hto.clear (height - 1) (by omega) (by omega)
  have hname : b.previousId = id' := h.linked hb' (by rwa [sub_add_cancel])
  exact ⟨b', hname ▸ hb'⟩

/-- The heights and links of the saved blocks, the conflicts and the stream decide. -/
theorem Exact.congr (h : o.Exact) (hstream : o'.stream = o.stream)
    (hconflicts : o'.conflicts = o.conflicts)
    (hblocks : ∀ id, (o'.blocks.lookup id).map (fun b => (b.height, b.previousId))
      = (o.blocks.lookup id).map fun b => (b.height, b.previousId)) : o'.Exact := by
  have hback : ∀ {height id b'}, o'.SavedAt height id b' →
      ∃ b, o.SavedAt height id b ∧ b.previousId = b'.previousId := by
    rintro height id b' ⟨hb', hheight⟩
    have hb := hblocks id
    rw [hb', Option.map_some, eq_comm, Option.map_eq_some_iff] at hb
    obtain ⟨b, hb, heq⟩ := hb
    obtain ⟨hh, hp⟩ := Prod.mk.inj heq
    exact ⟨b, ⟨hb, by rw [hh]; exact hheight⟩, hp⟩
  have hforth : ∀ {height id b}, o.SavedAt height id b → ∃ b', o'.SavedAt height id b' := by
    rintro height id b ⟨hb, hheight⟩
    have hb' := hblocks id
    rw [hb, Option.map_some, Option.map_eq_some_iff] at hb'
    obtain ⟨b', hb', heq⟩ := hb'
    exact ⟨b', hb', by rw [(Prod.mk.inj heq).1]; exact hheight⟩
  have hclear : ∀ x, o'.Clear x ↔ o.Clear x := by
    intro x
    rw [Clear, Clear, Unresolved, Unresolved, hconflicts]
    refine and_congr_left' ⟨?_, ?_⟩
    · rintro ⟨id, b', hb'⟩
      obtain ⟨b, hb, -⟩ := hback hb'
      exact ⟨id, b, hb⟩
    · rintro ⟨id, b, hb⟩
      obtain ⟨b', hb'⟩ := hforth hb
      exact ⟨id, b', hb'⟩
  refine ⟨⟨?_, ?_⟩, fun hnone id => ?_, fun stream hs => ?_⟩
  · intro height id id' b b' hb hb'
    obtain ⟨b₀, hb₀, -⟩ := hback hb
    obtain ⟨b₀', hb₀', -⟩ := hback hb'
    exact h.linked.unique hb₀ hb₀'
  · intro height id id' b b' hb hb'
    obtain ⟨b₀, hb₀, -⟩ := hback hb
    obtain ⟨b₀', hb₀', hp⟩ := hback hb'
    exact hp ▸ h.linked.linked hb₀ hb₀'
  · have hid := hblocks id
    rw [h.started (hstream ▸ hnone) id] at hid
    simpa using hid
  · obtain ⟨hto, hstop⟩ := h.cursor stream (hstream ▸ hs)
    exact ⟨⟨hto.launched, fun x hx hxle => (hclear x).mpr (hto.clear x hx hxle)⟩,
      fun hc => hstop ((hclear _).mp hc)⟩

theorem Counts.clear (h : o.Counts launch height) : o.Clear height := by
  obtain ⟨hclear, id, b, hb, -⟩ := h
  exact ⟨⟨id, b, hb⟩, hclear⟩

theorem ClearTo.mono {n : ℤ} (h : o.ClearTo launch height) (hn : n ≤ height)
    (hl : (launch : ℤ) - 1 ≤ n) : o.ClearTo launch n :=
  ⟨hl, fun x hx hxn => h.clear x hx (hxn.trans hn)⟩

/-- Clear heights are saved under different ids. -/
theorem clear_run_length (n : ℕ) (hclear : ∀ x, height < x → x ≤ height + n → o.Clear x) :
    n ≤ o.blocks.entries.length := by
  -- The heights of the run occur among the heights of the entries.
  have hsub : ((List.range n).map fun i : ℕ => height + 1 + (i : ℤ)) ⊆
      o.blocks.entries.map fun e => (e.2.height : ℤ) := by
    intro x hx
    obtain ⟨i, hi, rfl⟩ := List.mem_map.mp hx
    rw [List.mem_range] at hi
    obtain ⟨⟨id, b, hb, hheight⟩, -⟩ := hclear (height + 1 + i) (by omega) (by omega)
    exact List.mem_map.mpr ⟨⟨id, b⟩, Table.mem_entries_iff.mpr hb, hheight⟩
  have hnodup : ((List.range n).map fun i : ℕ => height + 1 + (i : ℤ)).Nodup := by
    refine List.Nodup.map ?_ List.nodup_range
    intro i j hij
    simpa using hij
  have hle := (hnodup.subperm hsub).length_le
  simpa using hle

end Observation

/-! ## The walk of `_advance` -/

namespace BlockStore

open Observation

variable {db db' : Db} {launch : ℕ} {height : ℤ}

theorem atHeight_eq_some {id : String} {b : ObservedBlock} (h : atHeight db height = some (id, b)) :
    db.observation.SavedAt height id b := by
  obtain ⟨hb, hheight⟩ := Table.find_eq_some h
  exact ⟨hb, by simpa using hheight⟩

theorem atHeight_eq_none (h : atHeight db height = none) :
    ¬ ∃ id b, db.observation.SavedAt height id b := by
  rintro ⟨id, b, hb, hheight⟩
  have hall := Table.find_eq_none.mp h id b hb
  simp [hheight] at hall

theorem hasUnresolvedConflict_iff {n : ℕ} :
    Reports.hasUnresolvedConflict db n = true ↔ db.observation.Unresolved n := by
  simp [Reports.hasUnresolvedConflict, Unresolved, and_comm]

/-- The walk goes on as long as heights are clear, or until its fuel is used up. -/
theorem contiguous_spec (hl : db.observation.Linked) (fuel : ℕ) :
    ∀ (height : ℤ) (previous : Option String),
      (∀ id, previous = some id → ∃ b, db.observation.SavedAt height id b) →
      height ≤ contiguous db fuel height previous ∧
      (∀ x, height < x → x ≤ contiguous db fuel height previous → db.observation.Clear x) ∧
      (contiguous db fuel height previous = height + fuel ∨
        ¬ db.observation.Clear (contiguous db fuel height previous + 1)) := by
  induction fuel with
  | zero =>
      intro height previous _
      refine ⟨le_rfl, fun x hx hle => ?_, Or.inl ?_⟩
      · exact absurd hle (not_le.mpr hx)
      · simp [contiguous]
  | succ fuel ih =>
      intro height previous hprevious
      rw [contiguous]
      cases hat : atHeight db (height + 1) with
      | none =>
          refine ⟨le_rfl, fun x hx hle => absurd hle (not_le.mpr hx), Or.inr fun hclear => ?_⟩
          exact atHeight_eq_none hat hclear.1
      | some entry =>
          obtain ⟨id, b⟩ := entry
          have hb := atHeight_eq_some hat
          dsimp only
          split
          next hstop =>
            refine ⟨le_rfl, fun x hx hle => absurd hle (not_le.mpr hx), Or.inr fun hclear => ?_⟩
            rcases hstop with hconflict | hunlinked
            · rw [hasUnresolvedConflict_iff, hb.2] at hconflict
              exact hclear.2 hconflict
            -- Saved neighbours are linked, so the walk never stops for this reason.
            · obtain ⟨id', rfl, hne⟩ := Option.any_eq_true _ _ |>.mp hunlinked
              obtain ⟨b', hb'⟩ := hprevious id' rfl
              simp [hl.linked hb' hb] at hne
          next hgo =>
            rw [not_or] at hgo
            have hclear : db.observation.Clear (height + 1) := by
              refine ⟨⟨id, b, hb⟩, ?_⟩
              rw [← hb.2, ← hasUnresolvedConflict_iff]
              exact hgo.1
            obtain ⟨hle, hrun, hend⟩ := ih (height + 1) (some id) (by
              rintro _ ⟨⟩
              exact ⟨b, hb⟩)
            refine ⟨by omega, fun x hx hxle => ?_, ?_⟩
            · by_cases heq : x = height + 1
              · rw [heq]
                exact hclear
              · exact hrun x (by omega) hxle
            · refine hend.imp_left fun heq => ?_
              rw [heq]
              push_cast
              ring

theorem advance_stream : (advance db).observation.stream = none ↔ db.observation.stream = none := by
  unfold advance
  cases hs : db.observation.stream with
  | none => exact ⟨fun _ => rfl, fun _ => hs⟩
  | some stream => exact ⟨fun h => (by cases h), fun h => (by cases h)⟩

/-- From a height up to which all is clear, `_advance` reaches the last such height. -/
theorem advance_exact (hl : db.observation.Linked)
    (hto : ∀ stream, db.observation.stream = some stream →
      db.observation.ClearTo stream.launchHeight stream.contiguousHeight) :
    (advance db).observation.CursorExact := by
  unfold advance
  cases hstream : db.observation.stream with
  | none =>
      intro stream hs
      rw [hstream] at hs
      cases hs
  | some stream =>
      rintro _ ⟨⟩
      have hclear := hto stream hstream
      obtain ⟨hle, hrun, hend⟩ := contiguous_spec hl db.observation.blocks.entries.length
        stream.contiguousHeight ((atHeight db stream.contiguousHeight).map (·.1)) (by
          intro id hid
          obtain ⟨⟨id', b⟩, hat, rfl⟩ := Option.map_eq_some_iff.mp hid
          exact ⟨b, atHeight_eq_some hat⟩)
      refine ⟨⟨hclear.launched.trans hle, fun x hx hxle => ?_⟩, ?_⟩
      · by_cases hold : x ≤ stream.contiguousHeight
        · exact hclear.clear x hx hold
        · exact hrun x (not_le.mp hold) hxle
      · rcases hend with hfuel | hstop
        -- The fuel would not have been used up: there are not that many blocks.
        · intro hnext
          have hlength := clear_run_length (db.observation.blocks.entries.length + 1)
            (o := db.observation)
            (by
              intro x hx hxle
              by_cases hlast : x ≤ stream.contiguousHeight + db.observation.blocks.entries.length
              · exact hrun x hx (by rw [hfuel]; exact hlast)
              · obtain rfl : x = stream.contiguousHeight + db.observation.blocks.entries.length
                    + 1 := by
                  push_cast at hxle
                  omega
                rw [← hfuel]
                exact hnext)
          omega
        · exact hstop

/-- The least of some heights and a bound. -/
theorem foldl_min_spec (heights : List ℤ) : ∀ bound : ℤ,
    heights.foldl min bound ≤ bound ∧ (∀ x ∈ heights, heights.foldl min bound ≤ x) ∧
      (heights.foldl min bound = bound ∨ heights.foldl min bound ∈ heights) := by
  induction heights with
  | nil =>
      intro bound
      simp
  | cons x rest ih =>
      intro bound
      obtain ⟨hbound, hall, hmem⟩ := ih (min bound x)
      rw [List.foldl_cons]
      refine ⟨hbound.trans (min_le_left _ _), ?_, ?_⟩
      · intro y hy
        rcases List.mem_cons.mp hy with rfl | hy
        · exact hbound.trans (min_le_right _ _)
        · exact hall y hy
      · rcases hmem with heq | hmem
        · rcases min_choice bound x with hmin | hmin
          · exact Or.inl (heq.trans hmin)
          · exact Or.inr (List.mem_cons.mpr (Or.inl (heq.trans hmin)))
        · exact Or.inr (List.mem_cons_of_mem x hmem)

/-- The cursor goes below the first conflict. -/
theorem observeHeight_spec (db : Db) (stream : ObservationStream) (seen : Option ℕ) :
    ∃ least latest : ℤ, observeHeight db stream seen = putStream db
        { stream with latestSeenHeight := latest, contiguousHeight := least - 1 } ∧
      least ≤ stream.contiguousHeight + 1 ∧
      (∀ alert ∈ db.observation.conflicts, alert.resolved = false →
        stream.launchHeight ≤ alert.height → least ≤ alert.height) ∧
      (least = stream.contiguousHeight + 1 ∨ ∃ alert ∈ db.observation.conflicts,
        alert.resolved = false ∧ stream.launchHeight ≤ alert.height ∧
          (alert.height : ℤ) = least) := by
  obtain ⟨hbound, hall, hleast⟩ := foldl_min_spec
    ((db.observation.conflicts.filter fun alert =>
      ¬ alert.resolved ∧ stream.launchHeight ≤ alert.height).map fun alert => (alert.height : ℤ))
    (stream.contiguousHeight + 1)
  refine ⟨_, _, rfl, hbound, fun alert halert hopen hl => ?_, hleast.imp_right fun hmem => ?_⟩
  · exact hall _ (List.mem_map.mpr ⟨alert, List.mem_filter.mpr ⟨halert, by simp [hopen, hl]⟩, rfl⟩)
  · obtain ⟨alert, halert, heq⟩ := List.mem_map.mp hmem
    obtain ⟨halert, hkept⟩ := List.mem_filter.mp halert
    simp only [Bool.not_eq_true, decide_eq_true_eq] at hkept
    exact ⟨alert, halert, hkept.1, hkept.2, heq⟩

/-- Pulled back below the conflicts, the cursor is exact, whatever conflicts were added
since it last was. -/
theorem observeHeight_exact {stream : ObservationStream} {seen : Option ℕ}
    (hlaunched : (stream.launchHeight : ℤ) - 1 ≤ stream.contiguousHeight)
    (hsaved : ∀ x, (stream.launchHeight : ℤ) ≤ x → x ≤ stream.contiguousHeight →
      ∃ id b, db.observation.SavedAt x id b)
    (hstop : ¬ db.observation.Clear (stream.contiguousHeight + 1)) :
    (observeHeight db stream seen).observation.CursorExact := by
  obtain ⟨least, latest, heq, hbound, hall, hleast⟩ := observeHeight_spec db stream seen
  rw [heq]
  rintro _ ⟨⟩
  have hnext : ¬ db.observation.Clear least := by
    rcases hleast with rfl | ⟨alert, halert, hopen, -, hheight⟩
    · exact hstop
    · exact fun hclear => hclear.2 ⟨alert, halert, hopen, hheight⟩
  refine ⟨⟨?_, fun x hx hxle => ⟨hsaved x hx ?_, ?_⟩⟩, ?_⟩
  · show (stream.launchHeight : ℤ) - 1 ≤ least - 1
    rcases hleast with rfl | ⟨alert, -, -, hl, hheight⟩ <;> omega
  · have hle : x ≤ least - 1 := hxle
    omega
  · rintro ⟨alert, halert, hopen, hheight⟩
    have hl : (stream.launchHeight : ℤ) ≤ x := hx
    have hle : x ≤ least - 1 := hxle
    have hmin := hall alert halert hopen (by omega)
    omega
  · intro hclear
    refine hnext ?_
    have hsame : least - 1 + 1 = least := by ring
    exact hsame ▸ hclear

/-! ## Records and resolutions -/

theorem conflictsWith_eq_nil {capture : BlockCapture} (h : conflictsWith db capture = []) :
    differing db capture = false ∧ unlinked db capture = [] := by
  rw [conflictsWith, List.map_eq_nil_iff, List.append_eq_nil_iff] at h
  refine ⟨?_, List.map_eq_nil_iff.mp h.2⟩
  by_contra hdiffer
  rw [Bool.not_eq_false] at hdiffer
  simp [hdiffer] at h

/-- A new block without conflicts fits between its neighbours. -/
theorem save_linked {source : Source} {capture : BlockCapture} (hl : db.observation.Linked)
    (h : conflictsWith db capture = []) : (save db source capture).observation.Linked := by
  rcases save_frame with ⟨-, heq⟩ | ⟨hfresh, heq⟩
  · rw [heq]
    exact hl
  rw [heq]
  obtain ⟨hsame, hneighbours⟩ := conflictsWith_eq_nil h
  have hkeep : ∀ {id b}, db.observation.blocks.lookup id = some b →
      b.height ≠ capture.height := by
    intro id b hb heq
    have hnot := Table.any_eq_false.mp hsame id b hb
    have hid : id ≠ capture.blockId := by
      rintro rfl
      exact hfresh (AList.lookup_isSome.mp (Option.isSome_of_eq_some hb))
    simp [heq, hid] at hnot
  have hneighbour : ∀ {id b}, db.observation.blocks.lookup id = some b →
      (b.height + 1 = capture.height → id = capture.previousId) ∧
        (b.height = capture.height + 1 → b.previousId = capture.blockId) := by
    intro id b hb
    have hnot := List.filter_eq_nil_iff.mp (List.map_eq_nil_iff.mp hneighbours) ⟨id, b⟩
      (Table.mem_entries_iff.mpr hb)
    simpa [not_or] using hnot
  constructor
  · rintro height id id' b b' ⟨hb, hheight⟩ ⟨hb', hheight'⟩
    rcases Table.lookup_insert_cases hb with ⟨rfl, rfl⟩ | ⟨-, hb⟩ <;>
      rcases Table.lookup_insert_cases hb' with ⟨rfl, rfl⟩ | ⟨-, hb'⟩
    · rfl
    · refine absurd ?_ (hkeep hb')
      exact_mod_cast hheight'.trans hheight.symm
    · refine absurd ?_ (hkeep hb)
      exact_mod_cast hheight.trans hheight'.symm
    · exact hl.unique ⟨hb, hheight⟩ ⟨hb', hheight'⟩
  · rintro height id id' b b' ⟨hb, hheight⟩ ⟨hb', hheight'⟩
    have hnext : b.height + 1 = b'.height := by omega
    rcases Table.lookup_insert_cases hb with ⟨rfl, rfl⟩ | ⟨-, hb⟩ <;>
      rcases Table.lookup_insert_cases hb' with ⟨rfl, rfl⟩ | ⟨-, hb'⟩
    · omega
    · exact (hneighbour hb').2 hnext.symm
    · exact ((hneighbour hb).1 hnext).symm
    · exact hl.linked ⟨hb, hheight⟩ ⟨hb', hheight'⟩

/-- Saving a block leaves what is clear as it is. -/
theorem save_clearTo {source : Source} {capture : BlockCapture}
    (h : db.observation.ClearTo launch height) :
    (save db source capture).observation.ClearTo launch height := by
  rcases save_frame with ⟨-, heq⟩ | ⟨hfresh, heq⟩
  · rw [heq]
    exact h
  · rw [heq]
    refine ⟨h.launched, fun x hx hxle => ?_⟩
    obtain ⟨⟨id, b, hb, hheight⟩, hclear⟩ := h.clear x hx hxle
    have hne : id ≠ capture.blockId := by
      rintro rfl
      exact hfresh (AList.lookup_isSome.mp (Option.isSome_of_eq_some hb))
    exact ⟨⟨id, b, (AList.lookup_insert_ne hne).trans hb, hheight⟩, hclear⟩

/-- Pushed on after a block is saved, the cursor is exact. -/
theorem advance_save_exact {source : Source} {capture : BlockCapture}
    (hl : db.observation.Linked) (hnone : conflictsWith db capture = [])
    (hstream : db.observation.stream ≠ none) (hto : db.observation.CursorExact) :
    (advance (save db source capture)).observation.Exact := by
  have hlinked : (save db source capture).observation.Linked := save_linked hl hnone
  have hsame : (save db source capture).observation.stream = db.observation.stream := by
    rcases save_frame with ⟨-, heq⟩ | ⟨-, heq⟩ <;> rw [heq]
  refine ⟨hlinked.congr advance_blocks, fun hs => ?_, advance_exact hlinked fun stream hs => ?_⟩
  · exact absurd (hsame ▸ advance_stream.mp hs) hstream
  · exact save_clearTo (hto stream (hsame ▸ hs)).1

/-- A record keeps blocks linked and the cursor exact. -/
theorem record_exact {source : Source} {capture : Option BlockCapture} {seen : Option ℕ}
    (he : db.observation.Exact) (h : record db source capture seen = .ok db') :
    db'.observation.Exact := by
  obtain ⟨stream, hstream, -, hcases⟩ := record_cases h
  obtain ⟨hto, hstop⟩ := he.cursor stream hstream
  have hsaved := fun x hx hxle => (hto.clear x hx hxle).1
  rcases hcases with ⟨-, rfl⟩ | ⟨c, -, -, ⟨-, rfl⟩ | ⟨hnone, saved, heq, rfl⟩⟩
  · obtain ⟨archive, hkeep⟩ := keep_frame db source seen true
    rw [hkeep]
    exact ⟨he.linked.congr rfl, fun hnone => (by cases hnone),
      @observeHeight_exact (db.putArchive archive) _ _ hto.launched hsaved hstop⟩
  · obtain ⟨archive, hkeep⟩ := keep_frame db (source.of c) (some c.height) true
    rw [hkeep]
    refine ⟨he.linked.congr rfl, fun hnone => (by cases hnone),
      @observeHeight_exact (warn (db.putArchive archive) _) _ _ hto.launched hsaved
        fun hclear => hstop ⟨hclear.1, ?_⟩⟩
    -- New alerts cannot make a height clear.
    rintro ⟨alert, halert, hopen⟩
    exact hclear.2 ⟨alert, List.mem_append_right _ halert, hopen⟩
  · obtain ⟨archive, hkeep⟩ := keep_frame db (source.of c) (some c.height) false
    have hseen := @observeHeight_exact (db.putArchive archive) stream (some c.height)
      hto.launched hsaved hstop
    have hexact := @advance_save_exact (observeHeight (db.putArchive archive) stream
      (some c.height)) (source.of c) c (he.linked.congr rfl) hnone (fun hs => by cases hs) hseen
    rw [← hkeep, ← heq] at hexact
    exact hexact.congr rfl rfl fun _ => rfl

/-- A resolution only clears heights, and lets the cursor move on. -/
theorem resolve_exact {index : ℕ} {proof : Result Unit} (he : db.observation.Exact)
    (h : resolve db index proof = .ok db') : db'.observation.Exact := by
  rcases resolve_cases h with rfl | ⟨i, alert, halert, rfl⟩
  · exact he
  · have hlinked : (settle db i alert).observation.Linked := he.linked.congr rfl
    refine ⟨hlinked.congr advance_blocks, fun hnone => ?_, advance_exact hlinked fun stream hs => ?_⟩
    · rw [advance_blocks]
      have hold : (settle db i alert).observation.stream = none := advance_stream.mp hnone
      exact he.started hold
    · obtain ⟨hto, -⟩ := he.cursor stream hs
      refine ⟨hto.launched, fun x hx hxle => ⟨(hto.clear x hx hxle).1, ?_⟩⟩
      rintro ⟨a, ha, hopen, hheight⟩
      rcases List.mem_or_eq_of_mem_set ha with ha | rfl
      · exact (hto.clear x hx hxle).2 ⟨a, ha, hopen, hheight⟩
      · cases hopen

theorem initializeStore_exact {launchHeight : ℕ} (he : db.observation.Exact)
    (h : initializeStore db launchHeight = .ok db') : db'.observation.Exact := by
  rcases initializeStore_cases h with rfl | ⟨hnone, rfl⟩
  · exact he
  · refine ⟨he.linked.congr rfl, fun hs => (by cases hs), ?_⟩
    rintro _ ⟨⟩
    refine ⟨⟨le_rfl, fun x hx hxle => ?_⟩, ?_⟩
    · have hle : x ≤ (launchHeight : ℤ) - 1 := hxle
      have hl : (launchHeight : ℤ) ≤ x := hx
      omega
    · rintro ⟨⟨id, b, hb, -⟩, -⟩
      cases (he.started hnone id).symm.trans hb

end BlockStore

/-- The transactions about observed blocks keep blocks linked and the cursor exact. -/
theorem ObservationStep.exact {held : Held} {db db' : Db} {a : ObservationAction}
    (h : ObservationStep held db a db') (he : db.observation.Exact) : db'.observation.Exact := by
  by_cases ha : a.archives = true
  · obtain ⟨_, rfl⟩ := h.archived ha
    exact he.congr rfl rfl fun _ => rfl
  cases h with
  | initializeStore h => exact BlockStore.initializeStore_exact he h
  | record h => exact BlockStore.record_exact he h
  | resolve h => exact BlockStore.resolve_exact he h
  | setGapPolicy h =>
      rcases BlockStore.setGapPolicy_cases h with rfl | ⟨_, rfl⟩
      · exact he
      · exact he.congr rfl rfl fun _ => rfl
  | waivePrelaunchGap h =>
      rcases BlockStore.waivePrelaunchGap_cases h with rfl | ⟨_, rfl⟩
      · exact he
      · exact he.congr rfl rfl fun _ => rfl
  | creditBlock _ _ h =>
      rcases Qualifiers.creditBlock_cases h with rfl | ⟨block, hblock, -, -, -, -, -, rfl⟩
      · exact he
      · refine he.congr rfl rfl fun id => ?_
        rw [Qualifiers.putCredited, Table.lookup_insert_eq]
        split
        next heq => rw [heq, hblock]; rfl
        next => rfl
  | _ => exact absurd rfl ha

namespace Sys

variable {s : Sys} {allowed : Sys → Action → Prop}

theorem Reachable.exact (h : Reachable allowed s) : s.db.observation.Exact := by
  refine Reachable.invariant (I := fun s => s.db.observation.Exact) h ?_ ?_
  · intro s hs
    refine ⟨⟨?_, ?_⟩, fun _ id => ?_, fun stream hstream => ?_⟩
    · rintro _ _ _ _ _ ⟨hb, -⟩
      rw [hs.blocks] at hb
      cases hb
    · rintro _ _ _ _ _ ⟨hb, -⟩
      rw [hs.blocks] at hb
      cases hb
    · rw [hs.blocks]
      rfl
    · rw [hs.stream] at hstream
      cases hstream
  · intro s a s' _ hs hexact hstep
    by_cases ho : ∃ o, a = .observe o
    · obtain ⟨o, rfl⟩ := ho
      cases hstep with
      | observe hstep => exact hstep.exact hexact
    · rw [hstep.observation hs.lawful fun o ha => ho ⟨o, ha⟩]
      exact hexact

end Sys

/-- In every reachable state: the cursor is the last height up to which every height
from the launch counts, no two blocks share a height, and neighbours are linked. -/
theorem contiguous_cursor {s : Sys} (h : Sys.Reachable Sys.Any s) :
    (∀ stream, s.db.observation.stream = some stream →
      IsGreatest {n : ℤ | (stream.launchHeight : ℤ) - 1 ≤ n ∧
        ∀ x, (stream.launchHeight : ℤ) ≤ x → x ≤ n →
          s.db.observation.Counts stream.launchHeight x} stream.contiguousHeight) ∧
    s.db.observation.Linked := by
  have hexact := h.exact
  refine ⟨fun stream hstream => ?_, hexact.linked⟩
  obtain ⟨hto, hstop⟩ := hexact.cursor stream hstream
  refine ⟨⟨hto.launched, fun x hx hxle => ?_⟩, ?_⟩
  · exact hexact.linked.counts (hto.mono hxle (by omega)) hx
  · rintro n ⟨-, hcounts⟩
    by_contra hlt
    have hl := hto.launched
    exact hstop (hcounts (stream.contiguousHeight + 1) (by omega) (by omega)).clear

namespace ScatteredDay

def capture (blockId : String) (height : ℕ) (previousId digest : String) :
    BlockStore.BlockCapture :=
  { FirstDay.block with
    blockId, height, previousId, semanticDigest := digest, accepted := [digest] }

/-- The captures are recorded one after the other, from the first that is named on. -/
def recorded (db : Db) (captures : List (Uuid × BlockStore.BlockCapture)) : Result Db :=
  captures.foldlM (fun db c => BlockStore.record db
    { attemptId := c.1, blockId := some c.2.blockId, chunks := [c.1] } (some c.2) none) db

/-- Blocks out of order with a gap; the gap is filled; two captures of one block contradict
each other; the contradiction is resolved. -/
def day : Result (Db × Db × Db × Db) := do
  let db ← BlockStore.initializeStore migrated 0
  let gapped ← recorded db [("a", capture "block-0" 0 "genesis" "d0"),
    ("b", capture "block-3" 3 "block-2" "d3"), ("c", capture "block-2" 2 "block-1" "d2")]
  let filled ← recorded gapped [("d", capture "block-1" 1 "block-0" "d1")]
  let disputed ← recorded filled [("e", capture "block-2" 2 "block-1" "other")]
  let resolved ← BlockStore.resolve disputed 0 (.ok ())
  return (gapped, filled, disputed, resolved)

theorem recorded_reachable {captures : List (Uuid × BlockStore.BlockCapture)} {db db' : Db}
    (hs : Sys.Reachable Sys.Any ⟨db, Held.empty⟩) (h : recorded db captures = .ok db') :
    Sys.Reachable Sys.Any ⟨db', Held.empty⟩ := by
  induction captures generalizing db with
  | nil =>
      obtain rfl := Except.ok.inj h
      exact hs
  | cons c rest ih =>
      simp only [recorded, List.foldlM_cons, bind_eq_ok] at h
      obtain ⟨db₁, hrecord, hrest⟩ := h
      exact ih (hs.step trivial (.observe (.record hrecord))) hrest

theorem day_spec : ∃ gapped filled disputed resolved,
    day = .ok (gapped, filled, disputed, resolved) ∧
    [gapped, filled, disputed, resolved].map (·.observation.stream.map (·.contiguousHeight))
      = [some 0, some 3, some 1, some 3] := by
  have hfacts : day.toOption.map (fun d => [d.1, d.2.1, d.2.2.1, d.2.2.2].map
      (·.observation.stream.map (·.contiguousHeight))) = some [some 0, some 3, some 1, some 3] := by
    decide +kernel
  obtain ⟨⟨gapped, filled, disputed, resolved⟩, hday, hfacts⟩ := Option.map_eq_some_iff.mp hfacts
  exact ⟨gapped, filled, disputed, resolved, eq_ok_of_toOption hday, hfacts⟩

theorem reachable {gapped filled disputed resolved : Db}
    (h : day = .ok (gapped, filled, disputed, resolved)) :
    ∀ db ∈ [gapped, filled, disputed, resolved], Sys.Reachable Sys.Any ⟨db, Held.empty⟩ := by
  simp only [day, bind_eq_ok, pure_eq_ok, Prod.mk.injEq] at h
  obtain ⟨db₀, hstart, _, hgapped, _, hfilled, _, hdisputed, _, hresolved, rfl, rfl, rfl, rfl⟩ := h
  have hstarted : Sys.Reachable Sys.Any ⟨db₀, Held.empty⟩ :=
    ⟨_, Sys.initial_migrated, .one trivial (.observe (.initializeStore hstart))⟩
  have hgap := recorded_reachable hstarted hgapped
  have hfill := recorded_reachable hgap hfilled
  have hdispute := recorded_reachable hfill hdisputed
  have hresolve := hdispute.step trivial (.observe (.resolve hresolved))
  simp only [List.forall_mem_cons, List.not_mem_nil, false_imp_iff, implies_true, and_true]
  exact ⟨hgap, hfill, hdispute, hresolve⟩

end ScatteredDay

/-- The cursor stops before a gap, passes it once it is filled, goes back to a contradiction and
passes it once it is resolved. -/
theorem contiguous_cursor_scattered : ∃ dbs : List Db,
    dbs.map (·.observation.stream.map (·.contiguousHeight)) = [some 0, some 3, some 1, some 3] ∧
    ∀ db ∈ dbs, db.observation.Linked ∧ ∀ stream, db.observation.stream = some stream →
      IsGreatest {n : ℤ | (stream.launchHeight : ℤ) - 1 ≤ n ∧
        ∀ x, (stream.launchHeight : ℤ) ≤ x → x ≤ n →
          db.observation.Counts stream.launchHeight x} stream.contiguousHeight := by
  obtain ⟨gapped, filled, disputed, resolved, hday, hheights⟩ := ScatteredDay.day_spec
  refine ⟨[gapped, filled, disputed, resolved], hheights, fun db hdb => ?_⟩
  obtain ⟨hcursor, hlinked⟩ := contiguous_cursor (ScatteredDay.reachable hday db hdb)
  exact ⟨hlinked, hcursor⟩

end TigPool
