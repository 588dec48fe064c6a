import ApiLoom.Decode.Field
import ApiLoom.Model.Decode

/-!
# Configuration

Settings that shape the generated artifacts.  Every setting has a default, and
the default page is never larger than the largest one.
-/

namespace ApiLoom

structure Config where
  stage : String
  debugInstrumentation : Bool
  defaultPageSize : Int
  maxPageSize : Int
  identifierField : String
  createdAtField : String
  updatedAtField : String
  groupsClaim : String
  scalars : List String
  templateVersion : String
  relationalCluster : Option Cluster
  queueUrlStashKey : String
  jobResultsTable : String
  timezoneHeader : Option String
deriving DecidableEq, Repr

namespace Config

def default : Config where
  stage := "dev"
  debugInstrumentation := false
  defaultPageSize := 20
  maxPageSize := 100
  identifierField := "id"
  createdAtField := "createdAt"
  updatedAtField := "updatedAt"
  groupsClaim := "cognito:groups"
  scalars := ["AWSDateTime", "AWSJSON", "AWSEmail", "AWSURL", "AWSPhone", "AWSIPAddress"]
  templateVersion := "2018-05-29"
  relationalCluster := none
  queueUrlStashKey := "queueUrl"
  jobResultsTable := "JobResults"
  timezoneHeader := some "x-user-timezone"

instance : Inhabited Config := ⟨default⟩

/-- The fields that the server keeps: when a record was made and when it last changed. -/
def managedTimestamps (c : Config) : List String :=
  [c.createdAtField, c.updatedAtField]

/-- Whether records come back with times in the zone of the caller. -/
def hasLocalTimes (c : Config) : Bool :=
  (nonEmpty c.timezoneHeader).isSome

/-! ### Decoding -/

/-- The names of the settings, in the order of the structure. -/
def settingNames : List String :=
  ["stage", "debug_instrumentation", "default_page_size", "max_page_size", "identifier_field",
    "created_at_field", "updated_at_field", "groups_claim", "scalars", "template_version",
    "relational_cluster", "queue_url_stash_key", "job_results_table", "timezone_header"]

def setting {α : Type} (name : String) (fallback : α) (decoder : Decoder α) (record : Entries) :
    Checked α :=
  (FieldName.plain name).withDefault fallback decoder record

def pageSize (most : Int) : Decoder Int :=
  Decoder.atLeast 1 (Decoder.atMost most Decoder.whole)

def decodeFields (record : Entries) : Checked Config :=
  (((((((((((((Checked.map Config.mk
    (setting "stage" default.stage Decoder.name record)).apply
    (setting "debug_instrumentation" default.debugInstrumentation Decoder.truth record)).apply
    (setting "default_page_size" default.defaultPageSize (pageSize 1000) record)).apply
    (setting "max_page_size" default.maxPageSize (pageSize 10000) record)).apply
    (setting "identifier_field" default.identifierField Decoder.name record)).apply
    (setting "created_at_field" default.createdAtField Decoder.name record)).apply
    (setting "updated_at_field" default.updatedAtField Decoder.name record)).apply
    (setting "groups_claim" default.groupsClaim Decoder.name record)).apply
    (setting "scalars" default.scalars (Decoder.list Decoder.text) record)).apply
    (setting "template_version" default.templateVersion Decoder.text record)).apply
    (setting "relational_cluster" default.relationalCluster (Decoder.orNull Cluster.decode)
      record)).apply
    (setting "queue_url_stash_key" default.queueUrlStashKey Decoder.name record)).apply
    (setting "job_results_table" default.jobResultsTable Decoder.name record)).apply
    (setting "timezone_header" default.timezoneHeader (Decoder.orNull Decoder.text) record)

def decode : Decoder Config := fun v =>
  (Decoder.record "CompilationConfig" (settingNames.map FieldName.plain) decodeFields v).require
    (fun c => c.defaultPageSize ≤ c.maxPageSize)
    fun c =>
      s!"default_page_size ({c.defaultPageSize}) must be <= max_page_size ({c.maxPageSize})."

/-! ### Overriding -/

def clusterRecord (c : Cluster) : Value :=
  .object [("name", .text c.name), ("secret_ref", .text c.secretRef),
    ("database", .text c.database)]

/-- The settings as a document, from which `decode` gets them back. -/
def record (c : Config) : List (String × Value) :=
  [("stage", .text c.stage),
    ("debug_instrumentation", .bool c.debugInstrumentation),
    ("default_page_size", .int c.defaultPageSize),
    ("max_page_size", .int c.maxPageSize),
    ("identifier_field", .text c.identifierField),
    ("created_at_field", .text c.createdAtField),
    ("updated_at_field", .text c.updatedAtField),
    ("groups_claim", .text c.groupsClaim),
    ("scalars", .texts c.scalars),
    ("template_version", .text c.templateVersion),
    ("relational_cluster", (c.relationalCluster.map clusterRecord).getD .null),
    ("queue_url_stash_key", .text c.queueUrlStashKey),
    ("job_results_table", .text c.jobResultsTable),
    ("timezone_header", (c.timezoneHeader.map Value.text).getD .null)]

/-- The settings of `c` with some of them given anew, all of them checked again. -/
def override (c : Config) (overrides : List (String × Value)) : Checked Config :=
  let entries : Entries := c.record.map fun e => (.text e.1, e.2)
  decode (.map (overrides.foldl (fun record o => Entries.put record (.text o.1) o.2) entries))

end Config

end ApiLoom
