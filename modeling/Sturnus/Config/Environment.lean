import Sturnus.Config.Load
import Sturnus.Foundation.Overlay

/-!
# The environment of the process

Before the configuration is loaded, a `.env` file adds the variables that are not
set yet, and a directory of secrets sets one variable for each of its files.
-/

namespace Sturnus

open Foundation Foundation.Interpolation

inductive FileType where
  | file
  | symlink
  | dir
  | other
  deriving DecidableEq

/-- An entry of a directory, and what reading it gives. -/
structure DirEntry where
  fileName : List UInt8
  /-- The path as it is displayed. -/
  path : Text
  fileType : Except Text FileType
  content : Except Text Text

/-- What `read_dir` lists, entry by entry. -/
abbrev ReadDir := List (Except Text DirEntry)

inductive EnvError where
  | dotenv (error : Text)
  | io (error : Text)
  | nonUtf8 (path : Text)
  /-- `set_var` panics. -/
  | panicked

/-- The error that `main` returns, unless it panics. -/
def EnvError.message : EnvError → Option Text
  | .dotenv error | .io error => some error
  | .nonUtf8 path => some ("non-UTF-8 filename: ".toList ++ path)
  | .panicked => none

/-- What `set_var` accepts: no empty name, no `=` in a name and no NUL. -/
def settable (key value : Text) : Bool :=
  !key.isEmpty && !key.contains '=' && !key.contains '\x00' && !value.contains '\x00'

/-- The variable that an entry sets, if it is not skipped. -/
def visitEntry (entry : Except Text DirEntry) : Except EnvError (Option (Text × Text)) := do
  let entry ← entry.mapError .io
  let fileType ← entry.fileType.mapError .io
  if fileType ≠ .file ∧ fileType ≠ .symlink then
    return none
  let key ← okOr (Text.ofBytes entry.fileName) (.nonUtf8 entry.path)
  if key.head? = some '.' then
    return none
  let val ← entry.content.mapError .io
  let val := Text.trimEndMatches '\n' val
  require (settable key val) .panicked
  return some (key, val)

def loadEnvDir (dir : Except Text ReadDir) (environment : Environment) :
    Except EnvError Environment := do
  let entries ← dir.mapError .io
  Overlay.load visitEntry environment entries

namespace DirEntry

/-- A visible file or link, whose name is the variable and whose content, but for the line breaks
at its end, is the value. -/
structure Sets (entry : DirEntry) (key value : Text) : Prop where
  kind : entry.fileType = .ok .file ∨ entry.fileType = .ok .symlink
  name : entry.fileName = key.bytes
  visible : key.head? ≠ some '.'
  content : ∃ breaks, entry.content = .ok (value ++ List.replicate breaks '\n')
  trimmed : value.getLast? ≠ some '\n'

/-- A directory, something special or a hidden file. -/
def Skipped (entry : DirEntry) : Prop :=
  entry.fileType = .ok .dir ∨ entry.fileType = .ok .other ∨
    (entry.fileType = .ok .file ∨ entry.fileType = .ok .symlink) ∧
      ∃ key : Text, entry.fileName = key.bytes ∧ key.head? = some '.'

/-- An entry that is skipped, or sets what can be set. -/
def Loads (entry : DirEntry) : Prop :=
  entry.Skipped ∨ ∃ key value, entry.Sets key value ∧ settable key value = true

end DirEntry

/-- No two entries of a directory have the same name. -/
def DistinctNames (entries : ReadDir) : Prop :=
  entries.Pairwise fun left right => ∀ first second, left = .ok first → right = .ok second →
    first.fileName ≠ second.fileName

section Visits

variable {entry : DirEntry}

theorem isFile_iff {kind : FileType} :
    ¬(kind ≠ .file ∧ kind ≠ .symlink) ↔ kind = .file ∨ kind = .symlink := by
  cases kind <;> simp

/-- The visit of a file or a link, once its name was read. -/
theorem visitEntry_file (kind : entry.fileType = .ok .file ∨ entry.fileType = .ok .symlink)
    {key : Text} (name : entry.fileName = key.bytes) :
    visitEntry (.ok entry) = if key.head? = some '.' then .ok none else do
      let val ← entry.content.mapError .io
      require (settable key (Text.trimEndMatches '\n' val)) .panicked
      return some (key, Text.trimEndMatches '\n' val) := by
  have named : Text.ofBytes entry.fileName = some key := Text.ofBytes_eq_some.mpr name
  unfold visitEntry
  rcases kind with kind | kind
  · simp only [Except.mapError, bind, Except.bind, kind, named, okOr]
    rfl
  · simp only [Except.mapError, bind, Except.bind, kind, named, okOr]
    rfl

/-- What a visit can make of an entry. -/
theorem visitEntry_eq_ok {setting : Option (Text × Text)} :
    visitEntry (.ok entry) = .ok setting ↔ (entry.Skipped ∧ setting = none) ∨
      ∃ key value, entry.Sets key value ∧ settable key value = true ∧
        setting = some (key, value) := by
  constructor
  · intro visited
    obtain ⟨_, same, visited⟩ := bind_eq_ok.mp visited
    cases same
    obtain ⟨kind, found, visited⟩ := bind_eq_ok.mp visited
    rw [mapError_eq_ok] at found
    split at visited
    next noFile =>
      cases visited
      left
      cases kind with
      | dir => exact ⟨.inl found, rfl⟩
      | other => exact ⟨.inr (.inl found), rfl⟩
      | file => exact absurd rfl noFile.1
      | symlink => exact absurd rfl noFile.2
    next isFile =>
      have kind : entry.fileType = .ok .file ∨ entry.fileType = .ok .symlink := by
        rcases isFile_iff.mp isFile with rfl | rfl
        · exact .inl found
        · exact .inr found
      obtain ⟨key, name, visited⟩ := bind_eq_ok.mp visited
      have name := Text.ofBytes_eq_some.mp (okOr_eq_ok.mp name)
      split at visited
      next hidden =>
        cases visited
        exact .inl ⟨.inr (.inr ⟨kind, key, name, hidden⟩), rfl⟩
      next visible =>
        obtain ⟨content, read, visited⟩ := bind_eq_ok.mp visited
        obtain ⟨_, legal, visited⟩ := bind_eq_ok.mp visited
        cases visited
        rw [mapError_eq_ok] at read
        obtain ⟨⟨breaks, whole⟩, trimmed⟩ :=
          Text.trimEndMatches_eq_iff.mp (Eq.refl (Text.trimEndMatches '\n' content))
        exact .inr ⟨key, _, ⟨kind, name, visible, ⟨breaks, whole ▸ read⟩, trimmed⟩,
          require_eq_ok.mp legal, rfl⟩
  · rintro (⟨noFile | noFile | ⟨kind, key, name, hidden⟩, rfl⟩ | ⟨key, value, sets, legal, rfl⟩)
    · exact bind_eq_ok.mpr ⟨entry, rfl, bind_eq_ok.mpr ⟨_, mapError_eq_ok.mpr noFile, rfl⟩⟩
    · exact bind_eq_ok.mpr ⟨entry, rfl, bind_eq_ok.mpr ⟨_, mapError_eq_ok.mpr noFile, rfl⟩⟩
    · rw [visitEntry_file kind name, if_pos hidden]
    · obtain ⟨breaks, read⟩ := sets.content
      have trimmed : Text.trimEndMatches '\n' (value ++ List.replicate breaks '\n') = value :=
        Text.trimEndMatches_eq_iff.mpr ⟨⟨breaks, rfl⟩, sets.trimmed⟩
      rw [visitEntry_file sets.kind sets.name, if_neg sets.visible]
      refine bind_eq_ok.mpr ⟨_, mapError_eq_ok.mpr read, ?_⟩
      rw [trimmed]
      exact bind_eq_ok.mpr ⟨(), require_eq_ok.mpr legal, rfl⟩

/-- Only what could be listed can be visited. -/
theorem exists_of_visitEntry {listed : Except Text DirEntry} {setting : Option (Text × Text)}
    (visited : visitEntry listed = .ok setting) : ∃ entry, listed = .ok entry := by
  obtain ⟨entry, found, -⟩ := bind_eq_ok.mp visited
  exact ⟨entry, mapError_eq_ok.mp found⟩

theorem visitEntry_eq_some {key value : Text} :
    visitEntry (.ok entry) = .ok (some (key, value)) ↔
      entry.Sets key value ∧ settable key value = true := by
  rw [visitEntry_eq_ok]
  constructor
  · rintro (⟨-, ⟨⟩⟩ | ⟨_, _, sets, legal, ⟨⟩⟩)
    exact ⟨sets, legal⟩
  · intro both
    exact .inr ⟨key, value, both.1, both.2, rfl⟩

/-- An entry whose visit succeeds sets whatever it is about. -/
theorem DirEntry.Sets.visit {key value : Text} {setting : Option (Text × Text)}
    (sets : entry.Sets key value) (visited : visitEntry (.ok entry) = .ok setting) :
    setting = some (key, value) := by
  rw [visitEntry_file sets.kind sets.name, if_neg sets.visible] at visited
  obtain ⟨breaks, read⟩ := sets.content
  obtain ⟨content, found, visited⟩ := bind_eq_ok.mp visited
  obtain ⟨_, -, visited⟩ := bind_eq_ok.mp visited
  rw [mapError_eq_ok, read] at found
  cases found
  cases visited
  have trimmed : Text.trimEndMatches '\n' (value ++ List.replicate breaks '\n') = value :=
    Text.trimEndMatches_eq_iff.mpr ⟨⟨breaks, rfl⟩, sets.trimmed⟩
  rw [trimmed]

/-- Entries with different names set different variables. -/
theorem apart_of_distinct {entries : ReadDir} (distinct : DistinctNames entries) :
    entries.Pairwise (Overlay.Apart visitEntry) := by
  apply distinct.imp
  intro left right different key first second visited other
  obtain ⟨leftEntry, rfl⟩ := exists_of_visitEntry visited
  obtain ⟨rightEntry, rfl⟩ := exists_of_visitEntry other
  apply different leftEntry rightEntry rfl rfl
  rw [(visitEntry_eq_some.mp visited).1.name, (visitEntry_eq_some.mp other).1.name]

end Visits

section Directory

variable {entries : ReadDir} {environment after : Environment}

theorem loadEnvDir_eq_ok {dir : Except Text ReadDir} :
    loadEnvDir dir environment = .ok after ↔ ∃ entries, dir = .ok entries ∧
      Overlay.load visitEntry environment entries = .ok after := by
  unfold loadEnvDir
  rw [bind_eq_ok]
  constructor
  · intro loads
    obtain ⟨entries, listed, loaded⟩ := loads
    exact ⟨entries, mapError_eq_ok.mp listed, loaded⟩
  · intro loads
    obtain ⟨entries, listed, loaded⟩ := loads
    exact ⟨entries, mapError_eq_ok.mpr listed, loaded⟩

/-- A loaded secret is in the environment. -/
theorem loadEnvDir_set (distinct : DistinctNames entries)
    (loaded : loadEnvDir (.ok entries) environment = .ok after) {entry : DirEntry}
    (member : .ok entry ∈ entries) {key value : Text} (sets : entry.Sets key value) :
    after key = some value := by
  have loaded : Overlay.load visitEntry environment entries = .ok after := loaded
  obtain ⟨setting, visited⟩ := Overlay.exists_load.mp ⟨after, loaded⟩ _ member
  cases sets.visit visited
  exact Overlay.load_set (apart_of_distinct distinct) loaded member visited

/-- What no secret is about stays as it is. -/
theorem loadEnvDir_unset (loaded : loadEnvDir (.ok entries) environment = .ok after) {key : Text}
    (unset : ∀ entry, .ok entry ∈ entries → ∀ value, ¬entry.Sets key value) :
    after key = environment key := by
  have loaded : Overlay.load visitEntry environment entries = .ok after := loaded
  apply Overlay.load_unset loaded
  intro listed member value visited
  obtain ⟨entry, rfl⟩ := exists_of_visitEntry visited
  exact unset entry member value (visitEntry_eq_some.mp visited).1

theorem exists_loadEnvDir : (∃ after, loadEnvDir (.ok entries) environment = .ok after) ↔
    ∀ listed ∈ entries, ∃ entry, listed = .ok entry ∧ entry.Loads := by
  refine Iff.trans Overlay.exists_load (forall₂_congr fun listed _ => ?_)
  constructor
  · intro visits
    obtain ⟨setting, visited⟩ := visits
    obtain ⟨entry, rfl⟩ := exists_of_visitEntry visited
    refine ⟨entry, rfl, ?_⟩
    rcases visitEntry_eq_ok.mp visited with ⟨skipped, -⟩ | ⟨key, value, sets, legal, -⟩
    · exact .inl skipped
    · exact .inr ⟨key, value, sets, legal⟩
  · intro loads
    obtain ⟨entry, rfl, skipped | ⟨key, value, sets, legal⟩⟩ := loads
    · exact ⟨none, visitEntry_eq_ok.mpr (.inl ⟨skipped, rfl⟩)⟩
    · exact ⟨some (key, value), visitEntry_eq_some.mpr ⟨sets, legal⟩⟩

/-- A directory of secrets loads exactly when every entry of it can be listed and is skipped or
sets what can be set.  Then its secrets are put over the environment, every other variable stays,
and the order of the listing does not matter. -/
theorem loadEnvDir_overlays (distinct : DistinctNames entries)
    (environment : Environment) :
    ((∃ after, loadEnvDir (.ok entries) environment = .ok after) ↔
      ∀ listed ∈ entries, ∃ entry, listed = .ok entry ∧ entry.Loads) ∧
    ∀ after, loadEnvDir (.ok entries) environment = .ok after →
      (∀ entry, .ok entry ∈ entries → ∀ key value, entry.Sets key value →
        after key = some value) ∧
      (∀ key, (∀ entry, .ok entry ∈ entries → ∀ value, ¬entry.Sets key value) →
        after key = environment key) ∧
      ∀ others, entries.Perm others → loadEnvDir (.ok others) environment = .ok after := by
  refine ⟨exists_loadEnvDir, ?_⟩
  · intro after loaded
    refine ⟨?_, ?_, ?_⟩
    · intro entry member key value sets
      exact loadEnvDir_set distinct loaded member sets
    · intro key unset
      exact loadEnvDir_unset loaded unset
    · intro others perm
      exact Overlay.load_perm (apart_of_distinct distinct) perm loaded

/-- The entry of a name, of some kind and with some content. -/
def namedEntry (name : String) (kind : FileType) (content : String) : DirEntry where
  fileName := Text.bytes name.toList
  path := "/secrets/".toList ++ name.toList
  fileType := .ok kind
  content := .ok content.toList

/-- A hidden directory, the link that a mount makes and a file. -/
def mountedEntries : List DirEntry :=
  [namedEntry "..data" .dir "", namedEntry "TEAM" .symlink "ml\n\n", namedEntry "OTHER" .file "x"]

theorem namedEntry_sets {name : String} {kind : FileType} {content : String} (value : String)
    (breaks : ℕ) (file : kind = .file ∨ kind = .symlink)
    (visible : name.toList.head? ≠ some '.')
    (whole : content.toList = value.toList ++ List.replicate breaks '\n')
    (trimmed : value.toList.getLast? ≠ some '\n') :
    (namedEntry name kind content).Sets name.toList value.toList where
  kind := file.imp (congrArg Except.ok) (congrArg Except.ok)
  name := rfl
  visible := visible
  content := ⟨breaks, congrArg Except.ok whole⟩
  trimmed := trimmed

theorem distinctNames_of_nodup (entries : List DirEntry)
    (nodup : (entries.map DirEntry.fileName).Nodup) : DistinctNames (entries.map .ok) := by
  apply List.pairwise_map.mpr
  apply (List.pairwise_map.mp nodup).imp
  rintro left right different first second ⟨⟩ ⟨⟩
  exact different

theorem mountedEntries_team :
    (namedEntry "TEAM" .symlink "ml\n\n").Sets "TEAM".toList "ml".toList :=
  namedEntry_sets "ml" 2 (.inr rfl) (by decide) (by decide) (by decide)

theorem mountedEntries_loads : ∀ entry ∈ mountedEntries, entry.Loads := by
  intro entry member
  simp only [mountedEntries, List.mem_cons, List.not_mem_nil, or_false] at member
  rcases member with rfl | rfl | rfl
  · exact .inl (.inl rfl)
  · exact .inr ⟨_, _, mountedEntries_team, by decide⟩
  · exact .inr ⟨_, _, namedEntry_sets "x" 0 (.inl rfl) (by decide) (by decide)
      (by decide), by decide⟩

theorem exists_loadEnvDir_of_loads (entries : List DirEntry)
    (loads : ∀ entry ∈ entries, entry.Loads) (environment : Environment) :
    ∃ after, loadEnvDir (.ok (entries.map .ok)) environment = .ok after := by
  apply exists_loadEnvDir.mpr
  intro listed member
  obtain ⟨entry, inside, rfl⟩ := List.mem_map.mp member
  exact ⟨entry, rfl, loads entry inside⟩

/-- The line breaks at the end of a secret are dropped, and the listing may be reversed. -/
theorem loadEnvDir_overlays_mounted :
    ∃ after, loadEnvDir (.ok (mountedEntries.map .ok)) (fun _ => some "old".toList) = .ok after ∧
      after "TEAM".toList = some "ml".toList ∧
      loadEnvDir (.ok (mountedEntries.map .ok).reverse) (fun _ => some "old".toList) =
        .ok after := by
  have distinct := distinctNames_of_nodup mountedEntries (by decide)
  obtain ⟨-, overlays⟩ := loadEnvDir_overlays distinct fun _ => some "old".toList
  obtain ⟨after, loaded⟩ := exists_loadEnvDir_of_loads mountedEntries mountedEntries_loads _
  obtain ⟨secrets, -, orders⟩ := overlays after loaded
  exact ⟨after, loaded, secrets _ (by simp [mountedEntries]) _ _ mountedEntries_team,
    orders _ (List.reverse_perm _).symm⟩

end Directory

section Startup

/-- What `main` is asked to load. -/
structure Cli where
  config : Text
  envFile : Option Text
  envDir : Option Text

/-- The file system, and `dotenvy::from_path` on it. -/
structure Files where
  readToString : Text → Except Text Text
  readDir : Text → Except Text ReadDir
  loadEnvFile : Text → Environment → Except Text Environment

structure Files.Lawful (files : Files) : Prop where
  distinct : ∀ dir entries, files.readDir dir = .ok entries → DistinctNames entries
  /-- A `.env` file does not overwrite what is set. -/
  keeps : ∀ path before after, files.loadEnvFile path before = .ok after →
    ∀ name value, before name = some value → after name = some value

inductive StartError (F Addr : Type) where
  | environment (error : EnvError)
  | config (error : LoadError F Addr)

/-- The environment once the `.env` file and then the secrets were loaded. -/
def Cli.loadEnv (cli : Cli) (files : Files) (environment : Environment) :
    Except EnvError Environment := do
  let environment ← (match cli.envFile with
    | some path => (files.loadEnvFile path environment).mapError .dotenv
    | none => .ok environment)
  match cli.envDir with
  | some dir => loadEnvDir (files.readDir dir) environment
  | none => .ok environment

variable {Scalar F Addr : Type} [Float64 F] [DecidableEq Addr]

/-- `main` up to the configuration. -/
def Cli.loadConfig (cli : Cli) (crates : Crates Scalar F Addr) (files : Files)
    (environment : Environment) : Except (StartError F Addr) (Config F) := do
  let environment ← (cli.loadEnv files environment).mapError .environment
  (Config.load crates files.readToString environment cli.config).mapError .config

/-- The directory of secrets has one for a variable. -/
def Cli.Mounts (cli : Cli) (files : Files) (key value : Text) : Prop :=
  ∃ dir entries, cli.envDir = some dir ∧ files.readDir dir = .ok entries ∧
    ∃ entry, .ok entry ∈ entries ∧ entry.Sets key value

variable {cli : Cli} {files : Files} {before after : Environment} {key value : Text}

omit [Float64 F] [DecidableEq Addr] in
theorem loadEnv_set (lawful : files.Lawful) (loaded : cli.loadEnv files before = .ok after)
    (mounts : cli.Mounts files key value) : after key = some value := by
  obtain ⟨dir, entries, asked, listed, entry, member, sets⟩ := mounts
  obtain ⟨between, -, loaded⟩ := bind_eq_ok.mp loaded
  rw [asked] at loaded
  dsimp only at loaded
  rw [listed] at loaded
  exact loadEnvDir_set (lawful.distinct dir entries listed) loaded member sets

theorem loadEnv_kept (lawful : files.Lawful) (loaded : cli.loadEnv files before = .ok after)
    (unmounted : ∀ value, ¬cli.Mounts files key value) (set : before key = some value) :
    after key = some value := by
  obtain ⟨between, first, loaded⟩ := bind_eq_ok.mp loaded
  have kept : between key = some value := by
    cases asked : cli.envFile with
    | none =>
        rw [asked] at first
        cases first
        exact set
    | some path =>
        rw [asked] at first
        exact lawful.keeps path before between (mapError_eq_ok.mp first) key value set
  cases asked : cli.envDir with
  | none =>
      rw [asked] at loaded
      cases loaded
      exact kept
  | some dir =>
      rw [asked] at loaded
      obtain ⟨entries, listed, -⟩ := loadEnvDir_eq_ok.mp loaded
      dsimp only at loaded
      rw [listed] at loaded
      refine (loadEnvDir_unset loaded ?_).trans kept
      intro entry member value sets
      exact unmounted value ⟨dir, entries, asked, listed, entry, member, sets⟩

/-- Secrets come before the variables of the process, and these before the `.env` file.  When every
variable that the configuration refers to is a secret, nothing else has a say in how it loads: the
outcome is the same whatever the process, the `.env` file and the rest of the directory have. -/
theorem secrets_decide_config (crates : Crates Scalar F Addr) (lawfulCrates : crates.Lawful)
    (lawful : files.Lawful) (loaded : cli.loadEnv files before = .ok after) :
    (∀ key value, cli.Mounts files key value → after key = some value) ∧
    (∀ key value, (∀ other, ¬cli.Mounts files key other) → before key = some value →
      after key = some value) ∧
    ∀ (other : Files) beforeOther afterOther raw template, other.Lawful →
      cli.loadEnv other beforeOther = .ok afterOther →
      files.readToString cli.config = .ok raw → other.readToString cli.config = .ok raw →
      scan raw = some template →
      (∀ name ∈ template.holes, ∃ value, cli.Mounts files name.text value ∧
        cli.Mounts other name.text value) →
      cli.loadConfig crates files before = cli.loadConfig crates other beforeOther := by
  refine ⟨fun _ _ => loadEnv_set lawful loaded, fun _ _ => loadEnv_kept lawful loaded, ?_⟩
  intro other beforeOther afterOther raw template lawfulOther loadedOther read readOther scanned
    mounted
  have same : crates.expand after raw = crates.expand afterOther raw := by
    apply lawfulCrates.substitutes.congr scanned
    intro name member
    obtain ⟨value, mounts, mountsOther⟩ := mounted name member
    exact ⟨value, loadEnv_set lawful loaded mounts,
      loadEnv_set lawfulOther loadedOther mountsOther⟩
  simp only [Cli.loadConfig, loaded, loadedOther, Config.load, Config.parse, read, readOther, same,
    Except.mapError, bind, Except.bind]

/-- The file with one label, a directory and a `.env` file that has nothing. -/
def mountedFiles (entries : List DirEntry) : Files where
  readToString _ := .ok (labelFile "team")
  readDir _ := .ok (entries.map .ok)
  loadEnvFile _ environment := .ok environment

theorem mountedFiles_lawful {entries : List DirEntry}
    (nodup : (entries.map DirEntry.fileName).Nodup) : (mountedFiles entries).Lawful := by
  refine ⟨?_, ?_⟩
  · rintro dir listed ⟨⟩
    exact distinctNames_of_nodup entries nodup
  · rintro path before after ⟨⟩ name value set
    exact set

/-- Another directory, in which the secret of the label is the same, and another process. -/
theorem secrets_decide_config_mounted :
    ∃ cli : Cli, cli.loadConfig simpleCrates (mountedFiles mountedEntries) (fun _ => none) =
      cli.loadConfig simpleCrates (mountedFiles [namedEntry "TEAM" .file "ml"])
        fun _ => some "old".toList := by
  have alone : (namedEntry "TEAM" .file "ml").Sets "TEAM".toList "ml".toList :=
    namedEntry_sets "ml" 0 (.inl rfl) (by decide) (by decide) (by decide)
  obtain ⟨after, loaded⟩ :=
    exists_loadEnvDir_of_loads mountedEntries mountedEntries_loads fun _ => none
  obtain ⟨afterOther, loadedOther⟩ := exists_loadEnvDir_of_loads
    [namedEntry "TEAM" .file "ml"]
    (by simpa using .inr ⟨_, _, alone, by decide⟩) fun _ => some "old".toList
  have started : Cli.loadEnv ⟨"sturnus.toml".toList, none, some []⟩ (mountedFiles mountedEntries)
      (fun _ => none) = .ok after := loaded
  obtain ⟨-, -, decided⟩ := secrets_decide_config simpleCrates simpleCrates_lawful
    (mountedFiles_lawful (by decide)) started
  refine ⟨_, decided (mountedFiles [namedEntry "TEAM" .file "ml"]) _ afterOther _ labelText.symbols
    (mountedFiles_lawful (by decide)) loadedOther rfl rfl labelText.scanned ?_⟩
  have referenced : ∀ name ∈ labelText.symbols.holes, name.text = "TEAM".toList := by
    decide +kernel
  intro name member
  rw [referenced name member]
  exact ⟨"ml".toList, ⟨[], _, rfl, rfl, _, by simp [mountedEntries], mountedEntries_team⟩,
    ⟨[], _, rfl, rfl, _, by simp, alone⟩⟩

end Startup

end Sturnus
