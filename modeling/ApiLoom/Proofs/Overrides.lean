import ApiLoom.CommandLine.Run
import ApiLoom.Document.Standard
import ApiLoom.Proofs.Decoded

/-!
# Overridden settings

The document of a configuration reads back as that configuration, whatever its settings are.  So
a flag of the command line changes the setting that it names and no other; if its value is none
that the setting can have, the faults are those of its value.
-/

namespace ApiLoom

open Checked

/-! ### Documents of values -/

namespace Decoder

theorem name_text_ok {s : String} (filled : s ≠ "") : name (.text s) = .ok s := by
  rw [name, if_neg fun empty => filled (String.isEmpty_iff.mp empty)]

theorem list_texts (items : List String) : list text (.texts items) = .ok items := by
  suffices all : ∀ position, Checked.all (itemsFrom text position (items.map Value.text)) =
      .ok items from all 0
  induction items with
  | nil => exact fun _ => rfl
  | cons s rest ih =>
    intro position
    rw [List.map_cons, itemsFrom, Checked.all, ih]
    rfl

theorem orNull_text (s : Option String) :
    orNull text ((s.map Value.text).getD .null) = .ok s := by
  cases s <;> rfl

end Decoder

theorem Cluster.decode_record {c : Cluster} (wellFormed : c.WellFormed) :
    Cluster.decode (Config.clusterRecord c) = .ok c := by
  have read : Cluster.decode (Config.clusterRecord c) =
      (((Checked.map Cluster.mk ((Decoder.name (.text c.name)).below (.key "name"))).apply
        ((Decoder.name (.text c.secretRef)).below (.key "secret_ref"))).apply
        ((Decoder.name (.text c.database)).below (.key "database"))).also (.ok ()) := rfl
  rw [read, Decoder.name_text_ok wellFormed.name, Decoder.name_text_ok wellFormed.secret,
    Decoder.name_text_ok wellFormed.database]
  rfl

namespace Config

variable {c : Config}

/-! ### Documents of configurations -/

def entries (c : Config) : Entries := c.record.map fun e => (.text e.1, e.2)

theorem orNull_cluster {cluster : Option Cluster}
    (wellFormed : ∀ c, cluster = some c → c.WellFormed) :
    Decoder.orNull Cluster.decode ((cluster.map clusterRecord).getD .null) = .ok cluster := by
  cases cluster with
  | none => rfl
  | some c => exact congrArg (map some) (Cluster.decode_record (wellFormed c rfl))

theorem pageSize_of_mem {most size : Int} (least : 1 ≤ size) (within : size ≤ most) :
    pageSize most (.int size) = .ok size := by
  have bounded : Decoder.atMost most Decoder.whole (.int size) = .ok size := if_pos within
  rw [pageSize, Decoder.atLeast, bounded]
  exact if_pos least

/-- The stage and the size of a page may be any; all other settings are those of a configuration
that is well-formed, and so have no faults. -/
theorem decodeFields_entries (wellFormed : c.WellFormed) (stage : String) (debug : Bool)
    (size : Int) :
    decodeFields { c with
        stage := stage, debugInstrumentation := debug, defaultPageSize := size }.entries =
      (Checked.map (fun stage size => { c with
          stage := stage, debugInstrumentation := debug, defaultPageSize := size })
        ((Decoder.name (.text stage)).below (.key "stage"))).apply
        ((pageSize 1000 (.int size)).below (.key "default_page_size")) := by
  let d : Config := { c with
    stage := stage, debugInstrumentation := debug, defaultPageSize := size }
  have largest : setting "max_page_size" default.maxPageSize (pageSize 10000) d.entries =
      .ok c.maxPageSize :=
    congrArg (below _) (pageSize_of_mem wellFormed.largest.1 wellFormed.largest.2)
  have identifier : setting "identifier_field" default.identifierField Decoder.name d.entries =
      .ok c.identifierField := congrArg (below _) (Decoder.name_text_ok wellFormed.identifier)
  have created : setting "created_at_field" default.createdAtField Decoder.name d.entries =
      .ok c.createdAtField := congrArg (below _) (Decoder.name_text_ok wellFormed.created)
  have updated : setting "updated_at_field" default.updatedAtField Decoder.name d.entries =
      .ok c.updatedAtField := congrArg (below _) (Decoder.name_text_ok wellFormed.updated)
  have groups : setting "groups_claim" default.groupsClaim Decoder.name d.entries =
      .ok c.groupsClaim := congrArg (below _) (Decoder.name_text_ok wellFormed.groups)
  have scalars : setting "scalars" default.scalars (Decoder.list Decoder.text) d.entries =
      .ok c.scalars := congrArg (below _) (Decoder.list_texts c.scalars)
  have cluster : setting "relational_cluster" default.relationalCluster
      (Decoder.orNull Cluster.decode) d.entries = .ok c.relationalCluster :=
    congrArg (below _) (orNull_cluster wellFormed.cluster)
  have queue : setting "queue_url_stash_key" default.queueUrlStashKey Decoder.name d.entries =
      .ok c.queueUrlStashKey := congrArg (below _) (Decoder.name_text_ok wellFormed.queue)
  have results : setting "job_results_table" default.jobResultsTable Decoder.name d.entries =
      .ok c.jobResultsTable := congrArg (below _) (Decoder.name_text_ok wellFormed.results)
  have timezone : setting "timezone_header" default.timezoneHeader (Decoder.orNull Decoder.text)
      d.entries = .ok c.timezoneHeader := congrArg (below _) (Decoder.orNull_text c.timezoneHeader)
  change decodeFields d.entries = _
  rw [decodeFields, largest, identifier, created, updated, groups, scalars, cluster, queue, results,
    timezone]
  change (((((((((((((Checked.map Config.mk
    ((Decoder.name (.text stage)).below (.key "stage"))).apply (.ok debug)).apply
    ((pageSize 1000 (.int size)).below (.key "default_page_size"))).apply _).apply _).apply
    _).apply _).apply _).apply _).apply (.ok c.templateVersion)).apply _).apply _).apply
    _).apply _ = _
  cases (Decoder.name (.text stage)).below (.key "stage") <;>
    cases (pageSize 1000 (.int size)).below (.key "default_page_size") <;> rfl

/-! ### Faults of the settings that flags name -/

def stageFaults (stage : String) : List Fault :=
  if stage = "" then [⟨[.key "stage"], .emptyText⟩] else []

def sizeFaults (size : Int) : List Fault :=
  if size < 1 then [⟨[.key "default_page_size"], .atLeast 1⟩]
  else if 1000 < size then [⟨[.key "default_page_size"], .atMost 1000⟩]
  else []

/-- A `default_page_size` above `max_page_size` is a fault of the configuration as a whole. -/
def orderFaults (size largest : Int) : List Fault :=
  if largest < size then
    [⟨[], .rejected s!"default_page_size ({size}) must be <= max_page_size ({largest})."⟩]
  else []

/-- The value, unless there are faults. -/
def unlessFaults {α : Type} (faults : List Fault) (a : α) : Checked α :=
  if faults.isEmpty then .ok a else .faults faults

theorem stage_read (stage : String) :
    (Decoder.name (.text stage)).below (.key "stage") = unlessFaults (stageFaults stage) stage := by
  by_cases empty : stage = ""
  · subst empty
    rfl
  · rw [Decoder.name_text_ok empty, stageFaults, if_neg empty]
    rfl

theorem size_read (size : Int) : (pageSize 1000 (.int size)).below (.key "default_page_size") =
    unlessFaults (sizeFaults size) size := by
  have read : pageSize 1000 (.int size) =
      Checked.bind (if size ≤ 1000 then .ok size else .fail (.atMost 1000)) fun i =>
        if 1 ≤ i then .ok i else .fail (.atLeast 1) := rfl
  by_cases least : 1 ≤ size
  · by_cases within : size ≤ 1000
    · rw [pageSize_of_mem least within, sizeFaults, if_neg (by omega), if_neg (by omega)]
      rfl
    · rw [read, if_neg within, sizeFaults, if_neg (by omega), if_pos (by omega)]
      rfl
  · rw [read, if_pos (by omega), sizeFaults, if_pos (by omega)]
    change below _ (if 1 ≤ size then _ else _) = _
    rw [if_neg least]
    rfl

/-- The faults of both settings, and only if there are none those of `orderFaults`. -/
def changeFaults (stage : String) (size largest : Int) : List Fault :=
  if (stageFaults stage ++ sizeFaults size).isEmpty then orderFaults size largest
  else stageFaults stage ++ sizeFaults size

theorem changeFaults_eq_nil_iff {stage : String} {size largest : Int} :
    changeFaults stage size largest = [] ↔
      stage ≠ "" ∧ 1 ≤ size ∧ size ≤ 1000 ∧ size ≤ largest := by
  have named : stageFaults stage = [] ↔ stage ≠ "" := by simp [stageFaults]
  have sized : sizeFaults size = [] ↔ 1 ≤ size ∧ size ≤ 1000 := by
    unfold sizeFaults
    split
    · exact iff_of_false (List.cons_ne_nil _ _) (by omega)
    · split
      · exact iff_of_false (List.cons_ne_nil _ _) (by omega)
      · exact iff_of_true rfl (by omega)
  have ordered : orderFaults size largest = [] ↔ size ≤ largest := by
    unfold orderFaults
    split
    · exact iff_of_false (List.cons_ne_nil _ _) (by omega)
    · exact iff_of_true rfl (by omega)
  unfold changeFaults
  split
  · next none =>
    rw [List.isEmpty_iff, List.append_eq_nil_iff, named, sized] at none
    rw [ordered]
    exact ⟨fun within => ⟨none.1, none.2.1, none.2.2, within⟩, fun fits => fits.2.2.2⟩
  · next some =>
    rw [List.isEmpty_iff, List.append_eq_nil_iff, named, sized] at some
    rw [List.append_eq_nil_iff, named, sized]
    exact iff_of_false some fun fits => some ⟨fits.1, fits.2.1, fits.2.2.1⟩

theorem decode_entries (wellFormed : c.WellFormed) (stage : String) (debug : Bool) (size : Int) :
    decode (.map { c with
        stage := stage, debugInstrumentation := debug, defaultPageSize := size }.entries) =
      unlessFaults (changeFaults stage size c.maxPageSize)
        { c with stage := stage, debugInstrumentation := debug, defaultPageSize := size } := by
  have known : unknownKeys (settingNames.map FieldName.plain) { c with
      stage := stage, debugInstrumentation := debug, defaultPageSize := size }.entries = .ok () :=
    rfl
  rw [decode, Decoder.record, known, decodeFields_entries wellFormed, stage_read, size_read]
  unfold changeFaults
  cases stageFaults stage with
  | cons f rest =>
    cases sizeFaults size with
    | nil => rw [List.append_nil]; rfl
    | cons g more => rfl
  | nil =>
    cases sizeFaults size with
    | cons g more => rfl
    | nil =>
      by_cases ordered : size ≤ c.maxPageSize
      · rw [orderFaults, if_neg (show ¬ c.maxPageSize < size by omega)]
        exact if_pos (decide_eq_true ordered)
      · rw [orderFaults, if_pos (show c.maxPageSize < size by omega)]
        exact if_neg (by simpa using ordered)

theorem decode_record (wellFormed : c.WellFormed) : decode (.object c.record) = .ok c := by
  have none : changeFaults c.stage c.defaultPageSize c.maxPageSize = [] :=
    changeFaults_eq_nil_iff.mpr
      ⟨wellFormed.stage, wellFormed.pages.1, wellFormed.pages.2, wellFormed.ordered⟩
  have read := decode_entries wellFormed c.stage c.debugInstrumentation c.defaultPageSize
  rw [none] at read
  exact read

end Config

/-! ### Flags -/

namespace Arguments

/-- The settings, with what the flags name in place of `stage`, `debugInstrumentation` and
`defaultPageSize`. -/
def change (a : Arguments) (c : Config) : Config := { c with
  stage := a.stage.getD c.stage
  debugInstrumentation := a.debugTemplates || c.debugInstrumentation
  defaultPageSize := a.pageSize.getD c.defaultPageSize }

/-- The values of the flags are ones that `stage` and `defaultPageSize` can have. -/
structure Fits (a : Arguments) (c : Config) : Prop where
  stage : ∀ stage, a.stage = some stage → stage ≠ ""
  size : ∀ size, a.pageSize = some size → 1 ≤ size ∧ size ≤ min 1000 c.maxPageSize

def faults (a : Arguments) (c : Config) : List Fault :=
  Config.changeFaults (a.stage.getD c.stage) (a.pageSize.getD c.defaultPageSize) c.maxPageSize

/-- The settings that the flags of the command line start from: those of the file at
`configPath`, or `Config.default`. -/
def Starts (a : Arguments) (parsers : Parsers) (files : Files) (c : Config) : Prop :=
  match a.configPath with
  | .none => c = Config.default
  | some path => Config.load parsers files path = .ok c

variable {a : Arguments} {c : Config}

theorem override_eq (a : Arguments) (c : Config) :
    c.override a.overrides = Config.decode (.map (a.change c).entries) := by
  unfold overrides change
  cases a.stage <;> cases a.pageSize <;> cases a.debugTemplates <;> rfl

theorem faults_eq_nil_iff (wellFormed : c.WellFormed) : a.faults c = [] ↔ a.Fits c := by
  have own := wellFormed.pages
  have ordered := wellFormed.ordered
  rw [faults, Config.changeFaults_eq_nil_iff]
  constructor
  · rintro ⟨named, least, most, within⟩
    refine ⟨?_, ?_⟩
    · rintro stage given
      simpa [given] using named
    · rintro size given
      rw [given, Option.getD_some] at least most within
      omega
  · rintro ⟨named, sized⟩
    refine ⟨?_, ?_⟩
    · cases given : a.stage with
      | none => exact wellFormed.stage
      | some stage => exact named stage given
    · cases given : a.pageSize with
      | none => simp only [Option.getD_none]; omega
      | some size =>
        have := sized size given
        simp only [Option.getD_some]
        omega

theorem override_changes (wellFormed : c.WellFormed) (a : Arguments) :
    c.override a.overrides = Config.unlessFaults (a.faults c) (a.change c) := by
  rw [override_eq]
  exact Config.decode_entries wellFormed _ _ _

/-- Flags are applied to the settings they start from; where they name none, nothing is read. -/
theorem ofArguments_start {parsers : Parsers} {files : Files} (starts : a.Starts parsers files c) :
    Config.ofArguments parsers a files =
      if a.overrides.isEmpty then .ok c
      else (c.override a.overrides).mapError ConfigFailure.invalidOverride := by
  unfold Starts at starts
  cases given : a.configPath with
  | none =>
    rw [given] at starts
    obtain rfl : c = Config.default := starts
    rw [Config.ofArguments, given]
    simp only [Bind.bind, Except.bind, pure, Except.pure]
    cases Config.default.override a.overrides <;> rfl
  | some path =>
    rw [given] at starts
    have read : Config.load parsers files path = .ok c := starts
    rw [Config.ofArguments, given]
    simp only [read, Bind.bind, Except.bind, pure, Except.pure]
    cases c.override a.overrides <;> rfl

/-- What the flags name is checked even if a file has all settings. -/
theorem ofArguments_eq {parsers : Parsers} {files : Files} (wellFormed : c.WellFormed)
    (starts : a.Starts parsers files c) :
    Config.ofArguments parsers a files =
      if (a.faults c).isEmpty then .ok (a.change c)
      else .error (.invalidOverride (a.faults c)) := by
  rw [ofArguments_start starts, override_changes wellFormed, Config.unlessFaults]
  split
  · next none =>
    have unchanged : c.override a.overrides = .ok c := by
      rw [List.isEmpty_iff.mp none]
      exact Config.decode_record wellFormed
    rw [override_changes wellFormed, Config.unlessFaults] at unchanged
    split at unchanged
    · next fine => rw [if_pos fine, ok_inj unchanged]
    · cases unchanged
  · cases (a.faults c).isEmpty <;> rfl

end Arguments

/-- Settings that are written down by `record` and read again are the same.  Flags make `change`
of them if the values fit, and otherwise there are the `faults` of the flags. -/
theorem Config.overrides_change_named (c : Config) (decoded : c.IsDecoded) (a : Arguments) :
    Config.decode (.object c.record) = .ok c ∧
    (a.Fits c → c.override a.overrides = .ok (a.change c) ∧
      ∀ parsers files, a.Starts parsers files c →
        Config.ofArguments parsers a files = .ok (a.change c)) ∧
    (¬ a.Fits c → a.faults c ≠ [] ∧ c.override a.overrides = .error (a.faults c) ∧
      ∀ parsers files, a.Starts parsers files c →
        Config.ofArguments parsers a files = .error (.invalidOverride (a.faults c))) := by
  have wellFormed := decoded.wellFormed
  refine ⟨decode_record wellFormed, fun fits => ?_, fun unfit => ?_⟩
  · have none := (Arguments.faults_eq_nil_iff wellFormed).mpr fits
    refine ⟨?_, fun parsers files starts => ?_⟩
    · rw [Arguments.override_changes wellFormed, none]
      rfl
    · rw [Arguments.ofArguments_eq wellFormed starts, none]
      rfl
  · have some := mt (Arguments.faults_eq_nil_iff wellFormed).mp unfit
    have filled : ¬ (a.faults c).isEmpty = true := by simpa using some
    refine ⟨some, ?_, fun parsers files starts => ?_⟩
    · rw [Arguments.override_changes wellFormed]
      exact if_neg filled
    · rw [Arguments.ofArguments_eq wellFormed starts, if_neg filled]

/-- Settings with a cluster and without local times. -/
def zonelessConfig : Config := { Config.default with
  maxPageSize := 50
  relationalCluster := some ⟨"main", "key", "notes"⟩
  timezoneHeader := none }

def zonelessFiles : Files where
  home := ""
  here := []
  entries := [(["app.json"], .file ("\x7b\"max_page_size\": 50, " ++
    "\"relational_cluster\": \x7b\"database\": \"notes\", \"name\": \"main\", " ++
    "\"secretRef\": \"key\"\x7d, \"timezone_header\": null\x7d").toUTF8)]

def zonelessArguments (size : Int) : Arguments := { Arguments.none with
  config := some "app.json"
  stage := some "prod"
  pageSize := some size }

/-- Up to the largest page the flags are taken, and the cluster and the missing zone stay. -/
theorem overrides_change_named_zoneless :
    Config.ofArguments .standard (zonelessArguments 50) zonelessFiles =
      .ok { zonelessConfig with stage := "prod", defaultPageSize := 50 } ∧
    Config.ofArguments .standard (zonelessArguments 51) zonelessFiles = .error (.invalidOverride
      [⟨[], .rejected "default_page_size (51) must be <= max_page_size (50)."⟩]) := by
  have starts (size : Int) :
      (zonelessArguments size).Starts .standard zonelessFiles zonelessConfig := by
    have loaded : (Config.load .standard zonelessFiles (Path.ofText "app.json")).toOption =
        some zonelessConfig := by decide +kernel
    change Config.load .standard zonelessFiles (Path.ofText "app.json") = .ok zonelessConfig
    cases read : Config.load .standard zonelessFiles (Path.ofText "app.json") with
    | error failure => rw [read] at loaded; cases loaded
    | ok c => rw [read] at loaded; rw [Option.some.inj loaded]
  have decoded : zonelessConfig.IsDecoded := ⟨.object zonelessConfig.record, rfl⟩
  constructor
  · obtain ⟨_, fits, _⟩ :=
      Config.overrides_change_named zonelessConfig decoded (zonelessArguments 50)
    refine (fits ⟨?_, ?_⟩).2 .standard zonelessFiles (starts 50)
    · rintro stage given
      obtain rfl : "prod" = stage := Option.some.inj given
      decide
    · rintro size given
      obtain rfl : 50 = size := Option.some.inj given
      decide
  · obtain ⟨_, _, unfit⟩ :=
      Config.overrides_change_named zonelessConfig decoded (zonelessArguments 51)
    refine (unfit fun fits => ?_).2.2 .standard zonelessFiles (starts 51)
    exact absurd (fits.size 51 rfl) (by decide)

end ApiLoom
