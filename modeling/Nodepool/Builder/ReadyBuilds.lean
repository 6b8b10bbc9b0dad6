import Nodepool.Builder.RunningBuilds

/-!
A build that has become READY stays as it is until it is marked or removed, and does not become
READY again.

The id of a build is made up once, so nobody builds it a second time. Whoever else stores or
removes builds only marks them as DELETING or removes them.
-/

namespace Nodepool

open Effect

namespace BuildSystem

open BuildWorld

variable {clocked : Prop} {old : List ReadyBuild} {w w' : BuildWorld} {i : BuildThread}
  {key : String × String} {p : BuildData → Prop}

/-- A build that has been READY, of which the given property holds while there is a record. -/
structure Stays (p : BuildData → Prop) (key : String × String) (w : BuildWorld) : Prop where
  logged : ∃ entry ∈ w.log, entry.key = key
  kept : ∀ data, w.read key = some data → p data

/-- A build that has been READY is not built again. -/
theorem Stays.unbuilt (h : Stays p key w) (inv : Inv clocked old w) : Unbuilt key w := by
  obtain ⟨entry, mem, rfl⟩ := h.logged
  exact ⟨inv.usedLog entry mem, fun j own => inv.unlogged j _ own entry mem rfl⟩

/-- The step lemma: what holds of marked builds is kept. -/
theorem Stays.stepped {c : BuilderCall} (h : Stays p key w)
    (marked : ∀ data : BuildData, data.state = .deleting → p data) (inv : Inv clocked old w)
    (req : Req clocked i w c) (hs : Stepped i w c w') : Stays p key w' := by
  have unbuilt := h.unbuilt inv
  obtain ⟨logged, kept⟩ := h
  cases hs with
  | look c image =>
      unfold look
      split <;> exact ⟨logged, kept⟩
  | store image build stored =>
      refine ⟨?_, fun data read => ?_⟩
      · obtain ⟨entry, mem, same⟩ := logged
        refine ⟨entry, ?_, same⟩
        simp only [finish]
        split
        · exact List.mem_cons_of_mem _ mem
        · exact mem
      · rw [show BuildWorld.read _ _ = _ from read_of_insert rfl] at read
        split at read
        · rename_i e
          rcases req with ⟨state, -⟩ | ⟨own, -⟩
          · exact marked data (Option.some.inj read ▸ state)
          · exact absurd own (e ▸ unbuilt.2 i)
        · exact kept data read
  | delete image id =>
      refine ⟨logged, fun data read => ?_⟩
      rw [read_delete] at read
      split at read
      · cases read
      · exact kept data read
  | touch c key => exact ⟨logged, fun data read => kept data (read_touch ▸ read)⟩
  | create image id data new =>
      refine ⟨logged, fun data read => ?_⟩
      have ne : key ≠ (image, id) := fun e => unbuilt.2 i (e ▸ req.1)
      rw [read_insert, if_neg ne] at read
      exact kept data read
  | _ => exact ⟨logged, kept⟩

variable {mid cfg : Config buildSystem}

/-- The run lemma. -/
theorem Stays.run (h : Stays p key mid.world)
    (marked : ∀ data : BuildData, data.state = .deleting → p data)
    (safe : (outline clocked old).Safe mid)
    (run : buildSystem.Run (Allowed clocked) mid cfg) : Stays p key cfg.world := by
  induction run with
  | refl => exact h
  | tail run _ step ih =>
      have safe := (outline clocked old).sound safe run
      cases step with
      | start => exact ih
      | call i r next mem => exact ih.stepped marked safe.inv (safe.req next) (next_stepped mem)
      | env env =>
          cases env
          exact ⟨ih.logged, ih.kept⟩

/-- **Main result.** The record of a READY build stays the same until it is marked or removed.
If it is the same no more, then it is DELETING whenever there is a record. -/
theorem ready_stays (builds : Dict (String × String) (Option BuildData))
    (files : List (String × String))
    (before : buildSystem.Run buildSystem.always (init builds files) mid) {data : BuildData}
    (read : mid.world.read key = some data) (ready : data.state = .ready)
    (after : buildSystem.Run buildSystem.always mid cfg) :
    (∀ data', cfg.world.read key = some data' → data' = data ∨ data'.state = .deleting) ∧
      (cfg.world.read key ≠ some data → ∀ later, buildSystem.Run buildSystem.always cfg later →
        ∀ data', later.world.read key = some data' → data'.state = .deleting) := by
  have allow {a b : Config buildSystem} (run : buildSystem.Run buildSystem.always a b) :
      buildSystem.Run (Allowed False) a b := run.mono fun _ _ _ => False.elim
  have safe := (outline False _).sound (init_safe False builds files) (allow before)
  have stays : Stays (fun data' => data' = data ∨ data'.state = .deleting) key mid.world :=
    ⟨⟨_, safe.inv.logged key data read ready, rfl⟩, fun data' read' =>
      .inl (Option.some.inj (read'.symm.trans read))⟩
  have stays := stays.run (fun _ => .inr) safe (allow after)
  refine ⟨stays.kept, fun changed later run => ?_⟩
  have marked : Stays (fun data' => data'.state = .deleting) key cfg.world :=
    ⟨stays.logged, fun data' read' => (stays.kept data' read').resolve_left fun same =>
      changed (same ▸ read')⟩
  exact (marked.run (fun _ => id) ((outline False _).sound safe (allow after)) (allow run)).kept

/-- A user deletes the build twice. -/
def deleteSchedule : List (System.Action buildSystem) :=
  .start (.user 0) (.delete "fedora" "1") ::
    List.replicate 3 (.respond (.user 0) (exampleAnswer false) 0)

theorem ready_stays_deleteSchedule : ∃ mid cfg,
    System.exec (fun _ _ => true) (init exampleBuilds []) deleteSchedule = some mid ∧
      System.exec (fun _ _ => true) mid deleteSchedule = some cfg ∧
      (∀ data, mid.world.read ("fedora", "1") = some data →
        data = ⟨.ready, ["qcow2"], 1000000⟩ ∨ data.state = .deleting) ∧
      ∀ data, cfg.world.read ("fedora", "1") = some data → data.state = .deleting := by
  have hexec : ∃ mid cfg data,
      System.exec (fun _ _ => true) (init exampleBuilds []) deleteSchedule = some mid ∧
        System.exec (fun _ _ => true) mid deleteSchedule = some cfg ∧
        mid.world.read ("fedora", "1") = some data ∧ data.state = .deleting :=
    ⟨_, _, _, rfl, rfl, rfl, rfl⟩
  obtain ⟨mid, cfg, data, hmid, hcfg, read, deleting⟩ := hexec
  obtain ⟨kept, gone⟩ := ready_stays exampleBuilds [] .refl
    (show (init exampleBuilds []).world.read ("fedora", "1") = some _ from rfl) rfl
    (System.exec_run buildSystem.always (fun _ _ _ => trivial) hmid)
  refine ⟨mid, cfg, hmid, hcfg, kept, gone ?_ cfg
    (System.exec_run buildSystem.always (fun _ _ _ => trivial) hcfg)⟩
  rw [read]
  rintro ⟨⟩
  cases deleting

end BuildSystem

end Nodepool
