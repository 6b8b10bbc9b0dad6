import Mathlib.Data.List.Basic
import Mathlib.Logic.Relation
import Mathlib.Order.Defs.LinearOrder
import Mathlib.Tactic
import Nodepool.Cloud.Segments

/-!
`ImageUploader.upload` of `nodepool/driver/utils.py`, once `startUpload` has returned, for any
file, segment size, concurrency and deadline, next to the threads that upload the segments.

The main thread reads and submits segments, waits, and looks at the results of what is done. The
threads finish in any order, and the clock goes on in between.
-/

namespace Nodepool.SegmentedUpload

structure Segment (Byte : Type) where
  index : ℕ
  offset : ℕ
  data : List Byte

/-- An upload; `returns` says which calls of `uploadSegment` return, after their retries. -/
structure Upload (Byte Time : Type) where
  file : List Byte
  segmentSize : ℕ
  concurrency : ℕ
  deadline : Option Time
  returns : ℕ → Bool
  segmentSize_pos : 0 < segmentSize

inductive Phase where
  /-- before the file is opened -/
  | start
  | loop
  /-- in `wait`, for the first future or for all of them -/
  | wait (first : Bool)
  /-- after `wait`, with the futures whose results are still to be looked at -/
  | results (first : Bool) (done : List ℕ)
  /-- at the end of the executor, with or without an exception -/
  | shutdown (raised : Bool)
  /-- `finishUpload` has been called -/
  | finished
  /-- `abortUpload` has been called -/
  | aborted
deriving DecidableEq

structure State (Byte Time : Type) where
  now : Time
  phase : Phase
  /-- how many rounds the loop has made -/
  index : ℕ
  /-- where the file is read -/
  position : ℕ
  submitted : List (Segment Byte)
  /-- segments whose `uploadSegment` has neither returned nor raised -/
  running : List ℕ
  futures : List ℕ
  /-- the clock at the check that follows the last `wait`, and the futures that it left -/
  lastCheck : Option (Time × List ℕ)

def State.Ended {Byte Time : Type} (s : State Byte Time) : Prop :=
  s.phase = .finished ∨ s.phase = .aborted

section Steps

variable {Byte Time : Type} [LinearOrder Time] (U : Upload Byte Time)

/-- `image_file.read(self.segment_size)` -/
def read (position : ℕ) : List Byte := (U.file.drop position).take U.segmentSize

/-- The next segment is read and submitted. -/
def submit (s : State Byte Time) : State Byte Time :=
  { s with
    phase := if U.concurrency * 2 ≤ (s.futures ++ [s.index]).length then .wait true else .loop
    index := s.index + 1
    position := s.position + (read U s.position).length
    submitted := s.submitted ++ [⟨s.index, s.index * U.segmentSize, read U s.position⟩]
    running := s.running ++ [s.index]
    futures := s.futures ++ [s.index] }

/-- `self.getTimeout() < 0` -/
def TimedOut (now : Time) : Prop := ∃ deadline ∈ U.deadline, deadline < now

/-- What the main thread does, and the threads of the executor. -/
inductive Act : State Byte Time → State Byte Time → Prop
  | openFile {s} (phase : s.phase = .start) : Act s { s with phase := .loop }
  /-- the file cannot be opened or read, or the segment cannot be submitted -/
  | raises {s} (phase : s.phase = .start ∨ s.phase = .loop) :
      Act s { s with phase := .shutdown true }
  | submit {s} (phase : s.phase = .loop) (more : s.index * U.segmentSize < U.file.length) :
      Act s (submit U s)
  | endLoop {s} (phase : s.phase = .loop) (last : ¬ s.index * U.segmentSize < U.file.length) :
      Act s { s with phase := .wait false }
  | wait {s} {first : Bool} {done : List ℕ} (phase : s.phase = .wait first)
      (waited : Waited (· ∉ s.running) s.futures first U.deadline s.now done) :
      Act s { s with phase := .results first done, futures := s.futures.filter (· ∉ done) }
  | result {s} {first : Bool} {i : ℕ} {done : List ℕ}
      (phase : s.phase = .results first (i :: done)) :
      Act s { s with phase := if U.returns i then .results first done else .shutdown true }
  | checkTimeout {s} {first : Bool} (raised : Bool) (phase : s.phase = .results first [])
      (timedOut : raised = true ↔ TimedOut U s.now) :
      Act s
        { s with
          phase := if raised then .shutdown true else if first then .loop else .shutdown false
          lastCheck := if first then s.lastCheck else some (s.now, s.futures) }
  /-- the executor is left when all its threads have ended -/
  | shutdown {s} {raised : Bool} (phase : s.phase = .shutdown raised) (idle : s.running = []) :
      Act s { s with phase := if raised then .aborted else .finished }
  | segment {s} {i : ℕ} (running : i ∈ s.running) : Act s { s with running := s.running.erase i }

/-- A step, or time passes. -/
inductive Step : State Byte Time → State Byte Time → Prop
  | act {s s'} (act : Act U s s') : Step s s'
  | tick {s} (now : Time) (later : s.now ≤ now) : Step s { s with now := now }

abbrev Run : State Byte Time → State Byte Time → Prop := Relation.ReflTransGen (Step U)

def initial (now : Time) : State Byte Time where
  now := now
  phase := .start
  index := 0
  position := 0
  submitted := []
  running := []
  futures := []
  lastCheck := none

/-- The bytes from `i * segment_size` on. -/
def segment (i : ℕ) : Segment Byte :=
  ⟨i, i * U.segmentSize, (U.file.drop (i * U.segmentSize)).take U.segmentSize⟩

/-- Every segment of the file has been uploaded by an `uploadSegment` that has returned. -/
def AllReturned (s : State Byte Time) : Prop :=
  s.submitted.flatMap Segment.data = U.file ∧
    ∀ segment ∈ s.submitted, segment.index ∉ s.running ∧ U.returns segment.index = true

/-- What is to hold when the upload has ended: the segments partition what has been read of the
file, and `finishUpload` is called only if all of them have been uploaded, and `abortUpload` if
not. -/
structure Right (s : State Byte Time) : Prop where
  segments : s.submitted = (List.range s.index).map (segment U)
  contiguous : s.submitted.flatMap Segment.data = U.file.take (s.index * U.segmentSize)
  finished : s.phase = .finished → AllReturned U s
  aborted : ¬ AllReturned U s → s.phase = .aborted

end Steps

/-! ### The upload comes to an end -/

def Phase.weight : Phase → ℕ
  | .start => 5
  | .loop => 4
  | .wait true => 6
  | .results true done => done.length + 5
  | .wait false => 3
  | .results false done => done.length + 2
  | .shutdown _ => 1
  | .finished | .aborted => 0

/-- What is left to do. -/
def work {Byte Time : Type} (U : Upload Byte Time) (s : State Byte Time) : ℕ :=
  8 * (U.file.length - s.index * U.segmentSize) + 2 * s.futures.length + s.running.length +
    s.phase.weight

section Work

variable {Byte Time : Type} [LinearOrder Time] {U : Upload Byte Time} {s s' : State Byte Time}

theorem length_filter_notMem {l done : List ℕ} (nodup : done.Nodup) (sub : ∀ i ∈ done, i ∈ l) :
    (l.filter (· ∉ done)).length + done.length ≤ l.length := by
  have split := List.length_eq_length_filter_add (l := l) (· ∉ done)
  have kept : done.length ≤ (l.filter fun i => !decide (i ∉ done)).length := by
    refine (nodup.subperm fun i mem => List.mem_filter.mpr ⟨sub i mem, ?_⟩).length_le
    simpa using mem
  omega

/-- Each act leaves less to do. -/
theorem work_lt (act : Act U s s') : work U s' < work U s := by
  unfold work
  cases act with
  | openFile phase =>
      rw [phase]
      simp only [Phase.weight]
      omega
  | raises phase =>
      rcases phase with phase | phase <;> rw [phase] <;> simp only [Phase.weight] <;> omega
  | submit phase more =>
      have positive := U.segmentSize_pos
      have weight : (submit U s).phase.weight ≤ 6 := by
        unfold submit
        dsimp only
        split <;> simp [Phase.weight]
      rw [phase]
      simp only [submit, List.length_append, List.length_singleton, Nat.succ_mul,
        Phase.weight] at weight ⊢
      omega
  | endLoop phase last =>
      rw [phase]
      simp only [Phase.weight]
      omega
  | @wait first done phase waited =>
      have shorter := length_filter_notMem waited.2.1 fun i mem => (waited.1 i mem).1
      rw [phase]
      cases first <;> simp only [Phase.weight] <;> omega
  | @result first i done phase =>
      rw [phase]
      cases first <;> cases U.returns i <;> simp [Phase.weight]
  | @checkTimeout first raised phase timedOut =>
      rw [phase]
      cases first <;> cases raised <;> simp [Phase.weight]
  | @shutdown raised phase idle =>
      rw [phase]
      cases raised <;> simp [Phase.weight]
  | segment running =>
      have shorter := List.length_erase_of_mem running
      have positive := List.length_pos_of_mem running
      dsimp only
      omega

end Work

/-! ### The invariant -/

section Invariant

variable {Byte Time : Type} [LinearOrder Time] {U : Upload Byte Time} {s s' : State Byte Time}

/-- The futures that are no longer waited for have returned, but for those whose results are
still to be looked at. -/
def Known (U : Upload Byte Time) (s : State Byte Time) (pending : List ℕ) : Prop :=
  ∀ i < s.index, i ∈ s.futures ∨ i ∈ pending ∨ U.returns i = true ∧ i ∉ s.running

/-- All segments have been submitted. -/
def Over (U : Upload Byte Time) (s : State Byte Time) : Prop :=
  ¬ s.index * U.segmentSize < U.file.length

/-- Futures are left only at the deadline or later. -/
def Late (U : Upload Byte Time) (s : State Byte Time) (now : Time) : Prop :=
  s.futures ≠ [] → ∃ deadline ∈ U.deadline, deadline ≤ now

/-- The last check has not raised. -/
def Passed (U : Upload Byte Time) (s : State Byte Time) : Prop :=
  Known U s [] ∧ Over U s ∧
    ∃ now, s.lastCheck = some (now, s.futures) ∧ ¬ TimedOut U now ∧ Late U s now

/-- If there was a last check, it has raised. -/
def Failing (U : Upload Byte Time) (s : State Byte Time) : Prop :=
  ∀ check ∈ s.lastCheck, TimedOut U check.1

/-- What holds in a phase. -/
def PhaseInv (U : Upload Byte Time) (s : State Byte Time) : Phase → Prop
  | .start | .loop => Known U s [] ∧ s.lastCheck = none
  | .wait first =>
      Known U s [] ∧ s.lastCheck = none ∧ (if first then s.futures ≠ [] else Over U s)
  | .results first done =>
      Known U s done ∧ s.lastCheck = none ∧ (∀ i ∈ done, i ∉ s.running) ∧
        (first = false → Over U s ∧ Late U s s.now)
  | .shutdown raised => if raised then Failing U s else Passed U s
  | .finished => Passed U s ∧ s.running = []
  | .aborted => Failing U s

structure Inv (U : Upload Byte Time) (s : State Byte Time) : Prop where
  segments : s.submitted = (List.range s.index).map (segment U)
  position : s.position = min (s.index * U.segmentSize) U.file.length
  futures_lt : ∀ i ∈ s.futures, i < s.index
  futures_nodup : s.futures.Nodup
  phase : PhaseInv U s s.phase

theorem initial_inv (now : Time) : Inv U (initial now) where
  segments := rfl
  position := by simp [initial]
  futures_lt := nofun
  futures_nodup := List.nodup_nil
  phase := ⟨nofun, rfl⟩

omit [LinearOrder Time] in
theorem Known.mono {pending running : List ℕ} {now : Time} (known : Known U s pending)
    (fewer : ∀ i ∈ running, i ∈ s.running) :
    Known U { s with now := now, running := running } pending := fun i lt =>
  (known i lt).imp_right (Or.imp_right (And.imp_right (mt (fewer i))))

/-- The clock goes on and threads end in any phase. -/
theorem PhaseInv.mono {running : List ℕ} {now : Time} {p : Phase} (h : PhaseInv U s p)
    (later : s.now ≤ now) (fewer : ∀ i ∈ running, i ∈ s.running) :
    PhaseInv U { s with now := now, running := running } p := by
  have passed (h : Passed U s) : Passed U { s with now := now, running := running } :=
    ⟨h.1.mono fewer, h.2⟩
  cases p with
  | start | loop => exact ⟨h.1.mono fewer, h.2⟩
  | wait first => exact ⟨h.1.mono fewer, h.2⟩
  | results first done =>
      obtain ⟨known, unchecked, settled, late⟩ := h
      refine ⟨known.mono fewer, unchecked, fun i mem => mt (fewer i) (settled i mem),
        fun last => ?_⟩
      refine ⟨(late last).1, fun left => ?_⟩
      obtain ⟨deadline, mem, le⟩ := (late last).2 left
      exact ⟨deadline, mem, le.trans later⟩
  | shutdown raised =>
      cases raised with
      | true => exact h
      | false => exact passed h
  | finished =>
      refine ⟨passed h.1, List.eq_nil_iff_forall_not_mem.mpr fun i mem => ?_⟩
      have mem := fewer i mem
      rw [h.2] at mem
      cases mem
  | aborted => exact h

theorem Inv.mono {running : List ℕ} {now : Time} (inv : Inv U s) (later : s.now ≤ now)
    (fewer : ∀ i ∈ running, i ∈ s.running) : Inv U { s with now := now, running := running } :=
  ⟨inv.segments, inv.position, inv.futures_lt, inv.futures_nodup, inv.phase.mono later fewer⟩

/-- What is read for a segment are the bytes from its offset on. -/
theorem read_position (inv : Inv U s) (more : s.index * U.segmentSize < U.file.length) :
    read U s.position = (segment U s.index).data ∧
      s.position + (read U s.position).length =
        min ((s.index + 1) * U.segmentSize) U.file.length := by
  have position : s.position = s.index * U.segmentSize := by
    rw [inv.position]
    omega
  refine ⟨by rw [position]; rfl, ?_⟩
  rw [read, List.length_take, List.length_drop, position, Nat.succ_mul]
  omega

theorem Inv.submit (inv : Inv U s) (phase : s.phase = .loop)
    (more : s.index * U.segmentSize < U.file.length) : Inv U (submit U s) := by
  obtain ⟨data, position⟩ := read_position inv more
  have known := inv.phase
  rw [phase] at known
  obtain ⟨known, unchecked⟩ := known
  have known' : Known U (Nodepool.SegmentedUpload.submit U s) [] := by
    intro i lt
    rcases Nat.lt_succ_iff_lt_or_eq.mp lt with lt | rfl
    · refine (known i lt).imp (List.mem_append_left _) (Or.imp_right (And.imp_right ?_))
      intro idle mem
      rcases List.mem_append.mp mem with mem | mem
      · exact idle mem
      · exact lt.ne (List.mem_singleton.mp mem)
    · exact .inl (List.mem_append_right _ List.mem_cons_self)
  refine ⟨?_, position, ?_, ?_, ?_⟩
  · change s.submitted ++ [⟨s.index, s.index * U.segmentSize, read U s.position⟩] =
      (List.range (s.index + 1)).map (segment U)
    rw [inv.segments, List.range_succ, List.map_append, data]
    rfl
  · intro i mem
    rcases List.mem_append.mp mem with mem | mem
    · exact Nat.lt_succ_of_lt (inv.futures_lt i mem)
    · rw [List.mem_singleton.mp mem]
      exact Nat.lt_succ_self _
  · refine List.nodup_append'.mpr ⟨inv.futures_nodup, List.nodup_singleton _, ?_⟩
    intro i mem last
    rw [List.mem_singleton.mp last] at mem
    exact lt_irrefl _ (inv.futures_lt _ mem)
  · change PhaseInv U _ (if _ then .wait true else .loop)
    split
    · exact ⟨known', unchecked, List.append_ne_nil_of_right_ne_nil _ (List.cons_ne_nil _ _)⟩
    · exact ⟨known', unchecked⟩

/-- The step lemma. -/
theorem Inv.act (inv : Inv U s) (act : Act U s s') : Inv U s' := by
  have known := inv.phase
  cases act with
  | openFile phase =>
      rw [phase] at known
      exact ⟨inv.segments, inv.position, inv.futures_lt, inv.futures_nodup, known⟩
  | raises phase =>
      refine ⟨inv.segments, inv.position, inv.futures_lt, inv.futures_nodup, ?_⟩
      have unchecked : s.lastCheck = none := by
        rcases phase with phase | phase <;>
          (rw [phase] at known
           exact known.2)
      intro check mem
      rw [unchecked] at mem
      cases mem
  | submit phase more => exact inv.submit phase more
  | endLoop phase last =>
      rw [phase] at known
      exact ⟨inv.segments, inv.position, inv.futures_lt, inv.futures_nodup, known.1, known.2, last⟩
  | @wait first done phase waited =>
      rw [phase] at known
      obtain ⟨known, unchecked, more⟩ := known
      obtain ⟨settled, -, ended⟩ := waited
      refine ⟨inv.segments, inv.position,
        fun i mem => inv.futures_lt i (List.mem_of_mem_filter mem),
        inv.futures_nodup.filter _, ?_, unchecked, fun i mem => (settled i mem).2, ?_⟩
      · intro i lt
        rcases known i lt with future | h | returned
        · by_cases mem : i ∈ done
          · exact .inr (.inl mem)
          · exact .inl (List.mem_filter.mpr ⟨future, by simpa using mem⟩)
        · cases h
        · exact .inr (.inr returned)
      · rintro rfl
        refine ⟨more, fun left => ended.resolve_left fun all => left ?_⟩
        refine List.filter_eq_nil_iff.mpr fun i mem => ?_
        simpa using all i mem
  | @result first i done phase =>
      refine ⟨inv.segments, inv.position, inv.futures_lt, inv.futures_nodup, ?_⟩
      rw [phase] at known
      obtain ⟨known, unchecked, settled, late⟩ := known
      change PhaseInv U _ (if U.returns i then _ else _)
      cases returns : U.returns i with
      | true =>
          refine ⟨fun j lt => ?_, unchecked,
            fun j mem => settled j (List.mem_cons_of_mem _ mem), late⟩
          rcases known j lt with future | mem | returned
          · exact .inl future
          · rcases List.mem_cons.mp mem with rfl | mem
            · exact .inr (.inr ⟨returns, settled j List.mem_cons_self⟩)
            · exact .inr (.inl mem)
          · exact .inr (.inr returned)
      | false =>
          intro check mem
          rw [show s.lastCheck = none from unchecked] at mem
          cases mem
  | @checkTimeout first raised phase timedOut =>
      refine ⟨inv.segments, inv.position, inv.futures_lt, inv.futures_nodup, ?_⟩
      rw [phase] at known
      obtain ⟨known, unchecked, -, late⟩ := known
      cases raised with
      | true =>
          intro check mem
          cases first with
          | true =>
              change check ∈ s.lastCheck at mem
              rw [unchecked] at mem
              cases mem
          | false =>
              cases mem
              exact timedOut.mp rfl
      | false =>
          cases first with
          | true => exact ⟨known, unchecked⟩
          | false =>
              exact ⟨known, (late rfl).1, s.now, rfl, (nomatch timedOut.mpr ·), (late rfl).2⟩
  | @shutdown raised phase idle =>
      refine ⟨inv.segments, inv.position, inv.futures_lt, inv.futures_nodup, ?_⟩
      rw [phase] at known
      cases raised with
      | true => exact known
      | false => exact ⟨known, idle⟩
  | segment running => exact inv.mono le_rfl fun _ => List.mem_of_mem_erase

/-- The run lemma. -/
theorem inv_of_run {now : Time} (run : Run U (initial now) s) : Inv U s := by
  induction run with
  | refl => exact initial_inv now
  | tail _ step inv =>
      cases step with
      | act act => exact inv.act act
      | tick now later => exact inv.mono later fun _ => id

/-! ### The end -/

omit [LinearOrder Time] in
theorem contiguous (i : ℕ) : ((List.range i).map (segment U)).flatMap Segment.data =
    U.file.take (i * U.segmentSize) := by
  induction i with
  | zero => simp
  | succ i ih =>
      rw [List.range_succ, List.map_append, List.flatMap_append, ih, Nat.succ_mul,
        List.take_add]
      simp [segment]

/-- An upload that has not ended goes on. -/
theorem exists_act (inv : Inv U s) (going : ¬ s.Ended) : ∃ s', Act U s s' := by
  have known := inv.phase
  by_cases running : s.running = []
  · cases phase : s.phase with
    | start => exact ⟨_, .openFile phase⟩
    | loop =>
        by_cases more : s.index * U.segmentSize < U.file.length
        · exact ⟨_, .submit phase more⟩
        · exact ⟨_, .endLoop phase more⟩
    | wait first =>
        rw [phase] at known
        have waited : Waited (· ∉ s.running) s.futures first U.deadline s.now s.futures := by
          refine ⟨fun i mem => ⟨mem, ?_⟩, inv.futures_nodup, .inl ?_⟩
          · rw [running]
            exact List.not_mem_nil
          · cases first with
            | true => exact known.2.2
            | false => exact fun _ mem => mem
        exact ⟨_, .wait phase waited⟩
    | results first done =>
        cases done with
        | nil =>
            by_cases timedOut : TimedOut U s.now
            · exact ⟨_, .checkTimeout true phase (iff_of_true rfl timedOut)⟩
            · exact ⟨_, .checkTimeout false phase (iff_of_false nofun timedOut)⟩
        | cons i done => exact ⟨_, .result phase⟩
    | shutdown raised => exact ⟨_, .shutdown phase running⟩
    | finished => exact absurd (.inl phase) going
    | aborted => exact absurd (.inr phase) going
  · obtain ⟨i, mem⟩ := List.exists_mem_of_ne_nil _ running
    exact ⟨_, .segment mem⟩

/-- At the last check, the clock reads the deadline only if all that is left returns. -/
def NotAtDeadline (U : Upload Byte Time) (s : State Byte Time) : Prop :=
  ∀ now left, s.lastCheck = some (now, left) → U.deadline = some now →
    ∀ i ∈ left, U.returns i = true

/-- What is missing for all segments to have returned when `finishUpload` is called. -/
theorem allReturned_iff (inv : Inv U s) (finished : s.phase = .finished) :
    AllReturned U s ↔ ∀ i ∈ s.futures, U.returns i = true := by
  have known := inv.phase
  rw [finished] at known
  obtain ⟨⟨known, complete, -⟩, idle⟩ := known
  have flat : s.submitted.flatMap Segment.data = U.file := by
    rw [inv.segments, contiguous, List.take_of_length_le (not_lt.mp complete)]
  rw [AllReturned, and_iff_right flat, inv.segments, idle]
  constructor
  · intro returned i mem
    refine (returned (segment U i) (List.mem_map_of_mem ?_)).2
    exact List.mem_range.mpr (inv.futures_lt i mem)
  · intro left segment mem
    obtain ⟨i, lt, rfl⟩ := List.mem_map.mp mem
    refine ⟨List.not_mem_nil, ?_⟩
    rcases known i (List.mem_range.mp lt) with future | h | returned
    · exact left i future
    · cases h
    · exact returned.1

theorem allReturned_iff_notAtDeadline (inv : Inv U s) (finished : s.phase = .finished) :
    AllReturned U s ↔ NotAtDeadline U s := by
  rw [allReturned_iff inv finished]
  have known := inv.phase
  rw [finished] at known
  obtain ⟨⟨-, -, now, check, inTime, late⟩, -⟩ := known
  constructor
  · intro left now' futures check' _
    rw [check, Option.some_inj] at check'
    cases check'
    exact left
  · intro condition i mem
    obtain ⟨deadline, isDeadline, le⟩ := late (List.ne_nil_of_mem mem)
    have same : deadline = now := by
      refine le_antisymm le (not_lt.mp fun lt => inTime ⟨deadline, isDeadline, lt⟩)
    exact condition now s.futures check (same ▸ isDeadline) i mem

/-- An upload always comes to an end. It then is right unless the clock read the deadline at the
last check and one of the segments that were not waited for has failed. -/
theorem upload_iff {now : Time} (run : Run U (initial now) s) :
    (∀ s', Act U s s' → work U s' < work U s) ∧ (¬ s.Ended → ∃ s', Act U s s') ∧
      (s.Ended → (Right U s ↔ NotAtDeadline U s)) := by
  have inv := inv_of_run run
  refine ⟨fun _ => work_lt, exists_act inv, fun ended => ?_⟩
  have segments := inv.segments
  have flat : s.submitted.flatMap Segment.data = U.file.take (s.index * U.segmentSize) := by
    rw [segments, contiguous]
  rcases ended with finished | aborted
  · rw [← allReturned_iff_notAtDeadline inv finished]
    exact ⟨fun right => right.finished finished, fun returned =>
      ⟨segments, flat, fun _ => returned, fun missing => absurd returned missing⟩⟩
  · refine iff_of_true ⟨segments, flat, fun h => ?_, fun _ => aborted⟩ ?_
    · rw [aborted] at h
      cases h
    · have known := inv.phase
      rw [aborted] at known
      intro now' left check deadline
      obtain ⟨deadline', isDeadline, lt⟩ := known (now', left) check
      rw [deadline] at isDeadline
      cases isDeadline
      exact absurd lt (lt_irrefl _)

end Invariant

/-! ### An upload that ends at its deadline -/

/-- A file of three bytes, and an `uploadSegment` that returns or raises. -/
def exampleUpload (returns : Bool) : Upload ℕ ℕ where
  file := [1, 2, 3]
  segmentSize := 4
  concurrency := 10
  deadline := some 5
  returns _ := returns
  segmentSize_pos := by decide

/-- The upload of the one segment goes on when `wait` times out, and ends before the executor
does. -/
theorem exampleRun (returns : Bool) : ∃ s, Run (exampleUpload returns) (initial 0) s ∧
    s.phase = .finished ∧ s.submitted = [⟨0, 0, [1, 2, 3]⟩] ∧ s.lastCheck = some (5, [0]) := by
  have first : 0 * 4 < 3 := by decide
  have last : ¬ 1 * 4 < 3 := by decide
  have soon : 0 ≤ 5 := by decide
  have inTime : ¬ TimedOut (exampleUpload returns) 5 := by
    rintro ⟨deadline, isDeadline, lt⟩
    cases isDeadline
    exact lt_irrefl _ lt
  refine ⟨_, .tail (.tail (.tail (.tail (.tail (.tail (.tail (.tail .refl
    (.act (.openFile rfl))) (.act (.submit rfl first))) (.act (.endLoop rfl last))) (.tick 5 soon))
    (.act (@Act.wait _ _ _ _ _ false [] rfl ⟨nofun, List.nodup_nil, .inr ?_⟩)))
    (.act (.checkTimeout false rfl (iff_of_false nofun inTime))))
    (.act (.segment (i := 0) List.mem_cons_self))) (.act (.shutdown rfl rfl)), rfl, rfl, rfl⟩
  exact ⟨5, rfl, le_rfl⟩

/-- The segment has returned. -/
theorem upload_iff_returns : ∃ s, Run (exampleUpload true) (initial 0) s ∧
    s.phase = .finished ∧ Right (exampleUpload true) s := by
  obtain ⟨s, run, finished, -, -⟩ := exampleRun true
  refine ⟨s, run, finished, ((upload_iff run).2.2 (.inl finished)).mpr ?_⟩
  exact fun _ _ _ _ _ _ => rfl

/-- The segment has failed, and `finishUpload` is called. -/
theorem finished_after_failure : ∃ s, Run (exampleUpload false) (initial 0) s ∧
    s.phase = .finished ∧ ¬ Right (exampleUpload false) s := by
  obtain ⟨s, run, finished, submitted, -⟩ := exampleRun false
  refine ⟨s, run, finished, fun right => ?_⟩
  have returned := (right.finished finished).2 ⟨0, 0, [1, 2, 3]⟩ (submitted ▸ List.mem_cons_self)
  exact absurd returned.2 (by decide)

end Nodepool.SegmentedUpload
