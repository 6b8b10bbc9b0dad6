import Mathlib.Logic.Function.Basic
import Mathlib.Logic.Relation
import Nodepool.Launcher.Calls
import Nodepool.Quota.Acceptance

/-!
`loadConfig`, `loadSecureConfig` and `checkRecentConfig` of `nodepool/config.py`, while others
write the two files.

A load asks for the mtime of a file before it reads it, so a configuration whose files have the
recorded mtimes is up to date, unless a file has been given its old mtime back. The mtime of an
empty secure file is not recorded.
-/

namespace Nodepool.ConfigFiles

inductive File where
  | config
  | secure
deriving DecidableEq

structure Version (Text : Type) where
  text : Text
  /-- `st_mtime_ns` -/
  mtime : ℤ

structure FileState (Text : Type) where
  current : Version Text
  /-- how often the file has been written -/
  writes : ℕ

def FileState.write {Text : Type} (file : FileState Text) (version : Version Text) :
    FileState Text where
  current := version
  writes := file.writes + 1

/-- What is made of the text of a file: `Yaml` are the documents, and `C` are configurations
without their mtimes. -/
structure Reader (Text Yaml C : Type) where
  openConfig : Text → Except Err Yaml
  newConfig : Yaml → Except Err C
  /-- `not secure` -/
  isEmpty : Yaml → Bool
  addSecure : C → Yaml → Except Err C

/-- The text is that of an empty document. -/
def Reader.Empty {Text Yaml C : Type} (R : Reader Text Yaml C) (text : Text) : Prop :=
  ∃ doc, R.openConfig text = .ok doc ∧ R.isEmpty doc = true

structure Config (C : Type) where
  value : C
  configMtimes : File → Option ℤ

def Config.setConfigPathMtime {C : Type} (config : Config C) (path : File) (mtime : ℤ) :
    Config C :=
  { config with configMtimes := Function.update config.configMtimes path (some mtime) }

section Load

variable {Text Yaml C : Type} (R : Reader Text Yaml C)

/-- `loadConfig`, once the file has been read. -/
def loadConfig (mtime : ℤ) (text : Text) : Except Err (Config C) := do
  let doc ← R.openConfig text
  let value ← R.newConfig doc
  .ok (Config.setConfigPathMtime ⟨value, fun _ => none⟩ .config mtime)

/-- `loadSecureConfig`, once the file has been read. -/
def loadSecureConfig (config : Config C) (mtime : ℤ) (text : Text) : Except Err (Config C) := do
  let secure ← R.openConfig text
  if R.isEmpty secure then
    .ok config
  else
    let value ← R.addSecure config.value secure
    .ok (Config.setConfigPathMtime { config with value := value } .secure mtime)

/-- `checkRecentConfig`; `secure` is whether there is a secure path. -/
def checkRecentConfig (secure : Bool) (config : Config C) (files : File → FileState Text) :
    Bool :=
  if (config.configMtimes .config).getD 0 ≠ (files .config).current.mtime then
    false
  else if secure && (config.configMtimes .secure).getD 0 ≠ (files .secure).current.mtime then
    false
  else
    true

/-! ### A load and the writes of others -/

inductive Phase (C : Type) where
  | start
  | configStat
  | configLoaded (config : Config C)
  | secureStat (config : Config C)
  | loaded (config : Config C)

structure State (Text C : Type) where
  files : File → FileState Text
  phase : Phase C
  /-- `config_mtime` and `secure_mtime` -/
  mtime : File → Option ℤ
  /-- how often the files had been written at their stat -/
  writes : File → ℕ
  /-- what was read of the files -/
  read : File → Option Text

/-- The load begins. -/
def initial (files : File → FileState Text) : State Text C where
  files := files
  phase := .start
  mtime _ := none
  writes path := (files path).writes
  read _ := none

/-- The stat of a file. -/
def State.stat (s : State Text C) (path : File) (phase : Phase C) : State Text C :=
  { s with
    phase := phase
    mtime := Function.update s.mtime path (some (s.files path).current.mtime)
    writes := Function.update s.writes path (s.files path).writes }

/-- A step of the load, or a write, which changes the mtime. A load that raises makes no further
step. -/
inductive Step (secure : Bool) : State Text C → State Text C → Prop
  | write (s : State Text C) (path : File) (version : Version Text)
      (new : version.mtime ≠ (s.files path).current.mtime) :
      Step secure s
        { s with files := Function.update s.files path ((s.files path).write version) }
  | statConfig {s : State Text C} (phase : s.phase = .start) :
      Step secure s (s.stat .config .configStat)
  | readConfig {s : State Text C} {mtime : ℤ} {config : Config C} (phase : s.phase = .configStat)
      (stat : s.mtime .config = some mtime)
      (load : loadConfig R mtime (s.files .config).current.text = .ok config) :
      Step secure s
        { s with
          phase := if secure then .configLoaded config else .loaded config
          read := Function.update s.read .config (some (s.files .config).current.text) }
  | statSecure {s : State Text C} {config : Config C} (phase : s.phase = .configLoaded config) :
      Step secure s (s.stat .secure (.secureStat config))
  | readSecure {s : State Text C} {mtime : ℤ} {config config' : Config C}
      (phase : s.phase = .secureStat config) (stat : s.mtime .secure = some mtime)
      (load : loadSecureConfig R config mtime (s.files .secure).current.text = .ok config') :
      Step secure s
        { s with
          phase := .loaded config'
          read := Function.update s.read .secure (some (s.files .secure).current.text) }

abbrev Run (secure : Bool) : State Text C → State Text C → Prop :=
  Relation.ReflTransGen (Step R secure)

end Load

/-! ### What is known of a file after its stat, and after it has been read -/

section Files

variable {Text : Type} {before file : FileState Text} {mtime : ℤ} {writes : ℕ} {text : Text}

/-- The file had this mtime after so many writes, some of them since the load began. -/
structure Statted (before file : FileState Text) (mtime : ℤ) (writes : ℕ) : Prop where
  since : before.writes ≤ writes
  past : writes ≤ file.writes
  mtime : writes = file.writes → mtime = file.current.mtime

/-- And this text was read since. -/
structure WasRead (before file : FileState Text) (mtime : ℤ) (writes : ℕ) (text : Text) : Prop
    extends Statted before file mtime writes where
  text : writes = file.writes → text = file.current.text

theorem Statted.now (grown : before.writes ≤ file.writes) :
    Statted before file file.current.mtime file.writes :=
  ⟨grown, le_rfl, fun _ => rfl⟩

theorem Statted.read (stat : Statted before file mtime writes) :
    WasRead before file mtime writes file.current.text :=
  ⟨stat, fun _ => rfl⟩

theorem Statted.write (stat : Statted before file mtime writes) (version : Version Text) :
    Statted before (file.write version) mtime writes where
  since := stat.since
  past := Nat.le_succ_of_le stat.past
  mtime same := absurd (same ▸ stat.past) (Nat.not_succ_le_self _)

theorem WasRead.write (read : WasRead before file mtime writes text) (version : Version Text) :
    WasRead before (file.write version) mtime writes text where
  toStatted := read.toStatted.write version
  text same := absurd (same ▸ read.past) (Nat.not_succ_le_self _)

/-- A file that has not been written since the load began has the mtime of its stat. -/
theorem Statted.mtime_eq (stat : Statted before file mtime writes) (same : file = before) :
    mtime = file.current.mtime := by
  subst same
  exact stat.mtime (le_antisymm stat.past stat.since)

end Files

/-! ### The invariant -/

section Invariant

variable {Text Yaml C : Type} {R : Reader Text Yaml C} {secure : Bool}
  {before : File → FileState Text} {s s' : State Text C}

/-- The configuration file was read after its mtime, which is recorded. -/
structure ConfigRead (before : File → FileState Text) (s : State Text C) (config : Config C) :
    Prop where
  read : ∃ mtime text, s.mtime .config = some mtime ∧ config.configMtimes .config = some mtime ∧
    s.read .config = some text ∧
      WasRead (before .config) (s.files .config) mtime (s.writes .config) text

/-- The secure file was read after its mtime, which is recorded unless the file was empty. -/
structure SecureRead (R : Reader Text Yaml C) (before : File → FileState Text)
    (s : State Text C) (config : Config C) : Prop where
  read : ∃ mtime text, s.mtime .secure = some mtime ∧ s.read .secure = some text ∧
    WasRead (before .secure) (s.files .secure) mtime (s.writes .secure) text ∧
      (R.Empty text ∧ config.configMtimes .secure = none ∨
        ¬ R.Empty text ∧ config.configMtimes .secure = some mtime)

/-- What holds in a phase of the load. -/
def PhaseInv (R : Reader Text Yaml C) (secure : Bool) (before : File → FileState Text)
    (s : State Text C) : Phase C → Prop
  | .start => True
  | .configStat =>
      ∃ mtime, s.mtime .config = some mtime ∧
        Statted (before .config) (s.files .config) mtime (s.writes .config)
  | .configLoaded config =>
      secure = true ∧ config.configMtimes .secure = none ∧ ConfigRead before s config
  | .secureStat config =>
      secure = true ∧ config.configMtimes .secure = none ∧ ConfigRead before s config ∧
        ∃ mtime, s.mtime .secure = some mtime ∧
          Statted (before .secure) (s.files .secure) mtime (s.writes .secure)
  | .loaded config =>
      ConfigRead before s config ∧ (secure = true → SecureRead R before s config)

structure Inv (R : Reader Text Yaml C) (secure : Bool) (before : File → FileState Text)
    (s : State Text C) : Prop where
  grown : ∀ path, (before path).writes ≤ (s.files path).writes
  phase : PhaseInv R secure before s s.phase

section Write

variable {files : File → FileState Text} {path : File} {version : Version Text} (p : File)

theorem written_cases (P : File → FileState Text → Prop) (old : P p (files p))
    (write : P path (files path) → P path ((files path).write version)) :
    P p (Function.update files path ((files path).write version) p) := by
  by_cases h : p = path
  · subst h
    rw [Function.update_self]
    exact write old
  · rw [Function.update_of_ne h]
    exact old

theorem Statted.written {mtime : ℤ} {writes : ℕ}
    (stat : Statted (before p) (files p) mtime writes) :
    Statted (before p) (Function.update files path ((files path).write version) p) mtime writes :=
  written_cases p (fun p file => Statted (before p) file mtime writes) stat
    fun stat => stat.write version

theorem WasRead.written {mtime : ℤ} {writes : ℕ} {text : Text}
    (read : WasRead (before p) (files p) mtime writes text) :
    WasRead (before p) (Function.update files path ((files path).write version) p) mtime writes
      text :=
  written_cases p (fun p file => WasRead (before p) file mtime writes text) read
    fun read => read.write version

end Write

/-- The step lemma for the writes of others. -/
theorem Inv.write (inv : Inv R secure before s) (path : File) (version : Version Text) :
    Inv R secure before
      { s with files := Function.update s.files path ((s.files path).write version) } where
  grown p := written_cases p (fun p file => (before p).writes ≤ file.writes)
    (inv.grown p) fun grown => Nat.le_succ_of_le grown
  phase := by
    have phase := inv.phase
    have config {c : Config C} : ConfigRead before s c → ConfigRead before
        { s with files := Function.update s.files path ((s.files path).write version) } c := by
      rintro ⟨m, text, stat, recorded, read, was⟩
      exact ⟨m, text, stat, recorded, read, was.written _⟩
    change PhaseInv R secure before _ s.phase
    generalize s.phase = current at phase
    cases current with
    | start => trivial
    | configStat =>
        obtain ⟨m, stat, had⟩ := phase
        exact ⟨m, stat, had.written _⟩
    | configLoaded c =>
        exact ⟨phase.1, phase.2.1, ⟨(config phase.2.2).read⟩⟩
    | secureStat c =>
        obtain ⟨used, missing, read, m, stat, had⟩ := phase
        exact ⟨used, missing, ⟨(config read).read⟩, m, stat, had.written _⟩
    | loaded c =>
        refine ⟨⟨(config phase.1).read⟩, fun used => ?_⟩
        obtain ⟨m, text, stat, read, was, loaded⟩ := phase.2 used
        exact ⟨m, text, stat, read, was.written _, loaded⟩

/-- The mtime is recorded, and that of the secure file is not. -/
theorem loadConfig_mtimes {mtime : ℤ} {text : Text} {config : Config C}
    (load : loadConfig R mtime text = .ok config) :
    config.configMtimes .config = some mtime ∧ config.configMtimes .secure = none := by
  obtain ⟨doc, -, load⟩ := Except.bind_eq_ok.mp load
  obtain ⟨value, -, load⟩ := Except.bind_eq_ok.mp load
  cases load
  exact ⟨rfl, rfl⟩

/-- The mtime is recorded unless the file is empty. -/
theorem loadSecureConfig_mtimes {mtime : ℤ} {text : Text} {config config' : Config C}
    (load : loadSecureConfig R config mtime text = .ok config') :
    config'.configMtimes .config = config.configMtimes .config ∧
      (R.Empty text ∧ config'.configMtimes .secure = config.configMtimes .secure ∨
        ¬ R.Empty text ∧ config'.configMtimes .secure = some mtime) := by
  obtain ⟨doc, opened, load⟩ := Except.bind_eq_ok.mp load
  split at load
  · rename_i empty
    cases load
    exact ⟨rfl, .inl ⟨⟨doc, opened, empty⟩, rfl⟩⟩
  · rename_i full
    obtain ⟨value, -, load⟩ := Except.bind_eq_ok.mp load
    cases load
    refine ⟨rfl, .inr ⟨?_, rfl⟩⟩
    rintro ⟨doc', opened', empty⟩
    rw [opened] at opened'
    cases opened'
    exact full empty

/-- What is known of a file after its stat. -/
theorem statted_stat (inv : Inv R secure before s) (path : File) (phase : Phase C) :
    ∃ mtime, (s.stat path phase).mtime path = some mtime ∧
      Statted (before path) ((s.stat path phase).files path) mtime
        ((s.stat path phase).writes path) := by
  refine ⟨(s.files path).current.mtime, Function.update_self .., ?_⟩
  rw [show (s.stat path phase).writes path = (s.files path).writes from Function.update_self ..]
  exact .now (inv.grown path)

/-- The step lemma. -/
theorem Inv.step (inv : Inv R secure before s) (step : Step R secure s s') :
    Inv R secure before s' := by
  cases step with
  | write path version new => exact inv.write path version
  | statConfig => exact ⟨inv.grown, statted_stat inv .config .configStat⟩
  | @readConfig mtime config phase stat load =>
      refine ⟨inv.grown, ?_⟩
      have known := inv.phase
      rw [phase] at known
      obtain ⟨m, stat', had⟩ := known
      rw [stat] at stat'
      cases stat'
      obtain ⟨recorded, missing⟩ := loadConfig_mtimes load
      have read : ConfigRead before { s with
          phase := if secure then .configLoaded config else .loaded config
          read := Function.update s.read .config (some (s.files .config).current.text) } config :=
        ⟨mtime, (s.files .config).current.text, stat, recorded,
          Function.update_self .config _ s.read, had.read⟩
      cases secure with
      | true => exact ⟨rfl, missing, ⟨read.read⟩⟩
      | false => exact ⟨⟨read.read⟩, nofun⟩
  | @statSecure config phase =>
      have known := inv.phase
      rw [phase] at known
      obtain ⟨used, missing, ⟨m, text, stat, recorded, read, was⟩⟩ := known
      refine ⟨inv.grown, used, missing, ⟨m, text, ?_, recorded, read, ?_⟩,
        statted_stat inv .secure (.secureStat config)⟩
      · exact (Function.update_of_ne (nofun : File.config ≠ .secure)
          (some (s.files .secure).current.mtime) s.mtime).trans stat
      · have same : (s.stat .secure (.secureStat config)).writes .config = s.writes .config :=
          Function.update_of_ne (nofun : File.config ≠ .secure) (s.files .secure).writes s.writes
        rw [same]
        exact was
  | @readSecure mtime config config' phase stat load =>
      refine ⟨inv.grown, ?_⟩
      have known := inv.phase
      rw [phase] at known
      obtain ⟨used, missing, ⟨m, text, statConfig, recorded, read, was⟩, m', stat', had⟩ := known
      rw [stat] at stat'
      cases stat'
      obtain ⟨kept, secureMtime⟩ := loadSecureConfig_mtimes load
      refine ⟨⟨m, text, statConfig, kept.trans recorded, ?_, was⟩, fun _ => ⟨mtime,
        (s.files .secure).current.text, stat, Function.update_self .secure _ s.read, had.read, ?_⟩⟩
      · exact (Function.update_of_ne (nofun : File.config ≠ .secure)
          (some (s.files .secure).current.text) s.read).trans read
      · exact secureMtime.imp_left (And.imp_right (·.trans missing))

/-- The run lemma. -/
theorem inv_of_run (run : Run R secure (initial before) s) : Inv R secure before s := by
  induction run with
  | refl => exact ⟨fun _ => le_rfl, trivial⟩
  | tail _ step inv => exact inv.step step

/-! ### What the check finds -/

theorem checkRecentConfig_iff {config : Config C} {files : File → FileState Text} :
    checkRecentConfig secure config files = true ↔
      (config.configMtimes .config).getD 0 = (files .config).current.mtime ∧
        (secure = true →
          (config.configMtimes .secure).getD 0 = (files .secure).current.mtime) := by
  unfold checkRecentConfig
  cases secure <;> simp

/-- A configuration that is reported as recent has what the files have, and one whose files have
not been written since before the load began is reported as recent. -/
structure DetectsChanges (secure : Bool) (before : File → FileState Text) (s : State Text C)
    (config : Config C) : Prop where
  sound : checkRecentConfig secure config s.files = true →
    s.read .config = some (s.files .config).current.text ∧
      (secure = true → s.read .secure = some (s.files .secure).current.text)
  complete : s.files = before → checkRecentConfig secure config s.files = true

/-- The secure file was empty when it was read. -/
def SecureEmpty (R : Reader Text Yaml C) (s : State Text C) : Prop :=
  ∃ text, s.read .secure = some text ∧ R.Empty text

/-- The file has the mtime of its stat, or 0 if it is the secure file and was empty. -/
def OldMtime (R : Reader Text Yaml C) (s : State Text C) : File → Prop
  | .config => s.mtime .config = some (s.files .config).current.mtime
  | .secure =>
      SecureEmpty R s ∧ (s.files .secure).current.mtime = 0 ∨
        ¬ SecureEmpty R s ∧ s.mtime .secure = some (s.files .secure).current.mtime

/-- The file has been written since its stat, and what was read of it has been replaced. -/
def Replaced (s : State Text C) (path : File) : Prop :=
  s.writes path < (s.files path).writes ∧ s.read path ≠ some (s.files path).current.text

/-- The default mtime 0 of an empty secure file is the one it has if no file was written, and no
replaced file has its old mtime back, while the other one has its own. -/
structure Harmless (R : Reader Text Yaml C) (secure : Bool) (before : File → FileState Text)
    (s : State Text C) : Prop where
  unwritten : secure = true → SecureEmpty R s → s.files = before →
    (s.files .secure).current.mtime = 0
  restored : OldMtime R s .config → (secure = true → OldMtime R s .secure) →
    ¬ Replaced s .config ∧ (secure = true → ¬ Replaced s .secure)

/-- What the check compares are the old mtimes. -/
theorem recent_iff {config : Config C} (configRead : ConfigRead before s config)
    (secureRead : secure = true → SecureRead R before s config) :
    checkRecentConfig secure config s.files = true ↔
      OldMtime R s .config ∧ (secure = true → OldMtime R s .secure) := by
  obtain ⟨m, text, stat, recorded, -, -⟩ := configRead
  rw [checkRecentConfig_iff, OldMtime, stat, recorded, Option.getD_some, Option.some_inj]
  refine and_congr_right fun _ => forall_congr' fun used => ?_
  obtain ⟨m', text', stat', read', -, ⟨empty, missing⟩ | ⟨full, recorded'⟩⟩ := secureRead used
  · have empty' : SecureEmpty R s := ⟨text', read', empty⟩
    rw [OldMtime, missing, Option.getD_none, eq_comm]
    simp [empty']
  · have full' : ¬ SecureEmpty R s := by
      rintro ⟨text, read, empty⟩
      rw [read'] at read
      cases read
      exact full empty
    rw [OldMtime, recorded', Option.getD_some, stat', Option.some_inj]
    simp [full']

/-- What was read of a file is there, or has been replaced. -/
theorem WasRead.replaced {path : File} {mtime : ℤ} {text : Text} (read : s.read path = some text)
    (was : WasRead (before path) (s.files path) mtime (s.writes path) text) :
    s.read path = some (s.files path).current.text ↔ ¬ Replaced s path := by
  constructor
  · exact fun same replaced => replaced.2 same
  · intro kept
    rcases was.past.lt_or_eq with written | same
    · exact not_not.mp fun other => kept ⟨written, other⟩
    · rw [read, was.text same]

/-- Changes are detected, unless the secure file was empty when it was read, or a file has been
replaced and has its old mtime. -/
theorem detectsChanges_iff {config : Config C} (run : Run R secure (initial before) s)
    (loaded : s.phase = .loaded config) :
    DetectsChanges secure before s config ↔ Harmless R secure before s := by
  have known := (inv_of_run run).phase
  rw [loaded] at known
  obtain ⟨configRead, secureRead⟩ := known
  have recent : checkRecentConfig secure config s.files = true ↔
      OldMtime R s .config ∧ (secure = true → OldMtime R s .secure) :=
    recent_iff configRead secureRead
  obtain ⟨m, text, stat, -, read, was⟩ := configRead
  have sound : (s.read .config = some (s.files .config).current.text ∧
      (secure = true → s.read .secure = some (s.files .secure).current.text)) ↔
      ¬ Replaced s .config ∧ (secure = true → ¬ Replaced s .secure) := by
    refine and_congr (was.replaced read) (forall_congr' fun used => ?_)
    obtain ⟨m', text', -, read', was', -⟩ := secureRead used
    exact was'.replaced read'
  constructor
  · intro detects
    refine ⟨fun used empty same => ?_, fun old old' =>
      sound.mp (detects.sound (recent.mpr ⟨old, old'⟩))⟩
    rcases (recent.mp (detects.complete same)).2 used with ⟨-, zero⟩ | ⟨full, -⟩
    · exact zero
    · exact absurd empty full
  · intro harmless
    refine ⟨fun h => sound.mpr (harmless.restored (recent.mp h).1 (recent.mp h).2), fun same => ?_⟩
    refine recent.mpr ⟨?_, fun used => ?_⟩
    · rw [OldMtime, stat, was.mtime_eq (congrFun same .config)]
    · obtain ⟨m', text', stat', -, was', -⟩ := secureRead used
      by_cases empty : SecureEmpty R s
      · exact .inl ⟨empty, harmless.unwritten used empty same⟩
      · exact .inr ⟨empty, by rw [stat', was'.mtime_eq (congrFun same .secure)]⟩

end Invariant

/-! ### Two files -/

/-- A text is its own document. -/
def exampleReader : Reader String String String where
  openConfig := .ok
  newConfig := .ok
  isEmpty secure := secure == ""
  addSecure config secure := .ok (config ++ secure)

def exampleFiles (secure : String) : File → FileState String
  | .config => ⟨⟨"labels", 5⟩, 1⟩
  | .secure => ⟨⟨secure, 7⟩, 1⟩

/-- The load of two files that nobody writes, one step after the other. -/
theorem exampleRun (secure : String) {config : Config String}
    (load : loadSecureConfig exampleReader
      (Config.setConfigPathMtime ⟨"labels", fun _ => none⟩ .config 5) 7 secure = .ok config) :
    ∃ s, Run exampleReader true (initial (exampleFiles secure)) s ∧ s.phase = .loaded config ∧
      s.files = exampleFiles secure ∧ s.read .secure = some secure ∧ ∀ path, s.writes path = 1 := by
  refine ⟨_, .tail (.tail (.tail (.tail .refl (.statConfig rfl)) (.readConfig rfl rfl rfl))
    (.statSecure rfl)) (.readSecure rfl rfl load), rfl, rfl, rfl, ?_⟩
  rintro (_ | _) <;> rfl

/-- With a secure file that has a server. -/
theorem detectsChanges_iff_server : ∃ s config,
    Run exampleReader true (initial (exampleFiles "server")) s ∧ s.phase = .loaded config ∧
      DetectsChanges true (exampleFiles "server") s config := by
  obtain ⟨s, run, loaded, same, read, writes⟩ := exampleRun "server" rfl
  have kept (path : File) : ¬ Replaced s path := by
    rintro ⟨written, -⟩
    rw [writes, same] at written
    cases path <;> exact absurd written (lt_irrefl _)
  refine ⟨s, _, run, loaded, (detectsChanges_iff run loaded).mpr
    ⟨?_, fun _ _ => ⟨kept .config, fun _ => kept .secure⟩⟩⟩
  rintro - ⟨text, read', doc, opened, empty⟩
  rw [read] at read'
  cases read'
  cases opened
  cases empty

/-- With an empty secure file the configuration is never recent. -/
theorem empty_not_recent : ∃ s config,
    Run exampleReader true (initial (exampleFiles "")) s ∧ s.phase = .loaded config ∧
      s.files = exampleFiles "" ∧ ¬ DetectsChanges true (exampleFiles "") s config := by
  obtain ⟨s, run, loaded, same, -⟩ := exampleRun "" rfl
  refine ⟨s, _, run, loaded, same, fun detects => ?_⟩
  have recent := detects.complete same
  rw [same] at recent
  cases recent

end Nodepool.ConfigFiles
