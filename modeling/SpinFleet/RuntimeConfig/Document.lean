import SpinFleet.RuntimeConfig.Sensitive
import SpinFleet.RuntimeConfig.Toml
import SpinFleet.Error
/-!
# The configuration document

What an app's runtime reads when it starts: where variables come from, and the options of every
store, every database and of the compute binding.  A document is rendered as TOML; equal documents
have equal texts, and the text names the `Secret` that holds it.
-/
namespace SpinFleet

def variablePrefix : String := "SPIN_VARIABLE_"

def runtimeConfigKey : String := "runtime-config.toml"

/-- The options of a binding by name, its type among them. -/
abbrev OptionMap := Dict String Sensitive

structure VariableProvider where
  envPrefix : String
deriving DecidableEq, Repr

inductive Category
  | keyValueStore
  | sqliteDatabase
  | llmCompute
deriving DecidableEq, Repr

def Category.words : Category → String
  | .keyValueStore => "key value store"
  | .sqliteDatabase => "sqlite database"
  | .llmCompute => "llm compute"

def Category.table : Category → String
  | .keyValueStore => "key_value_store"
  | .sqliteDatabase => "sqlite_database"
  | .llmCompute => "llm_compute"

/-- A configuration in which every value is known. -/
structure Document where
  providers : List VariableProvider
  keyValueStores : Dict String OptionMap
  sqliteDatabases : Dict String OptionMap
  llmCompute : Option OptionMap

namespace Document

def empty : Document := ⟨[], .empty, .empty, none⟩

/-- The document that only says where variables come from. -/
def withEnvProvider : Document := { empty with providers := [⟨variablePrefix⟩] }

/-- Enters a binding under a name that must be new to its category. -/
def enter (category : Category) (name : String) (options : OptionMap) (d : Dict String OptionMap) :
    Except Error (Dict String OptionMap) :=
  if d.contains name then
    .error (.runtimeConfig
      ("duplicate definition for " ++ category.words ++ " with name: " ++ name))
  else .ok (d.insert name options)

/-- Adds a binding.  The compute binding has no name, and the last one stays. -/
def add (category : Category) (name : String) (options : OptionMap) (d : Document) :
    Except Error Document :=
  match category with
  | .keyValueStore => do
    return { d with keyValueStores := ← enter category name options d.keyValueStores }
  | .sqliteDatabase => do
    return { d with sqliteDatabases := ← enter category name options d.sqliteDatabases }
  | .llmCompute => .ok { d with llmCompute := some options }

/-! ## Rendering -/

def optionEntries (o : OptionMap) : List (String × String) :=
  o.toList.map fun e => (e.1, e.2.reveal)

def providerTable (p : VariableProvider) : Toml.Table :=
  ⟨Toml.listHeader ["config_provider"], [("type", "env"), ("prefix", p.envPrefix)]⟩

def bindingTables (category : Category) (d : Dict String OptionMap) : List Toml.Table :=
  d.toList.map fun e => ⟨Toml.tableHeader [category.table, e.1], optionEntries e.2⟩

def tables (d : Document) : List Toml.Table :=
  d.providers.map providerTable
    ++ bindingTables .keyValueStore d.keyValueStores
    ++ bindingTables .sqliteDatabase d.sqliteDatabases
    ++ (d.llmCompute.map fun o =>
      ⟨Toml.tableHeader [Category.llmCompute.table], optionEntries o⟩).toList

def toToml (d : Document) : String := Toml.document d.tables

/-- The name of the `Secret` that holds an app's rendered document: the app's name, and the
checksum of the text. -/
def secretName (app text : String) : String := app ++ "-" ++ Checksum.digits text

/-! ## The document as a value -/

def encodeProvider (p : VariableProvider) : Json :=
  .object [("type", .string "env"), ("prefix", .string p.envPrefix)]

def encodeOptions (o : OptionMap) : Json := Json.ofDict Sensitive.codec.encode o

/-- A document as a value with the same names as its text. -/
def encode (d : Document) : Json := .ofGroups [
  Json.unlessEmpty "config_provider" d.providers encodeProvider,
  Json.dictUnlessEmpty Category.keyValueStore.table d.keyValueStores encodeOptions,
  Json.dictUnlessEmpty Category.sqliteDatabase.table d.sqliteDatabases encodeOptions,
  Json.optional Category.llmCompute.table d.llmCompute encodeOptions]

end Document

end SpinFleet
