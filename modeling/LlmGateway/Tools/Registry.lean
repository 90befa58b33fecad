import LlmGateway.Lib.OrderedDict
import Mathlib.Data.List.MinMax
import Mathlib.Data.String.Basic

/-! The two tool registries: one is filled at runtime, the other begins with what a manifest lists. -/
namespace LlmGateway.Tools
open Lib

/-- `V` is the type of the values in a manifest, whatever they are. -/
structure ToolDescriptor (V : Type) where
  name : String
  version : String
  description : String
  capabilities : List V
  requiredPermissions : List V
  schema : List (String × V)
  deriving DecidableEq

variable {V : Type}

def ToolDescriptor.qualifiedName (d : ToolDescriptor V) : String := d.name ++ "@" ++ d.version

/-- `_tools`, in either registry. -/
abbrev ToolDict (V : Type) := OrderedDict String (ToolDescriptor V)

namespace ToolDict

def register (tools : ToolDict V) (descriptor : ToolDescriptor V) : ToolDict V :=
  tools.set descriptor.qualifiedName descriptor

/-- Without a version, the first of those whose version is the greatest text. -/
def get (tools : ToolDict V) (name : String) (version : Option String) : Option (ToolDescriptor V) :=
  match version with
  | some version => OrderedDict.get tools (name ++ "@" ++ version)
  | none => (tools.values.filter fun d => d.name = name).argmax ToolDescriptor.version

end ToolDict

/-! ### `in_memory_registry.py` -/

structure InMemoryToolRegistry (V : Type) where
  tools : ToolDict V

namespace InMemoryToolRegistry

def init : InMemoryToolRegistry V := ⟨.empty⟩

def register (r : InMemoryToolRegistry V) (descriptor : ToolDescriptor V) : InMemoryToolRegistry V :=
  ⟨r.tools.register descriptor⟩

def get (r : InMemoryToolRegistry V) (name : String) (version : Option String) : Option (ToolDescriptor V) :=
  ToolDict.get r.tools name version

end InMemoryToolRegistry

/-! ### `static_manifest_registry.py` -/

/-- What Python's own types make of a value. -/
structure Builtins (V : Type) where
  /-- Its items, when it is a `dict`. -/
  asDict : V → Option (List (String × V))
  /-- Its elements, when it is a `list`. -/
  asList : V → Option (List V)
  str : V → String
  -- `none` where it raises
  tuple : V → Option (List V)
  dict : V → Option (List (String × V))

inductive LoadError where
  | manifestError (message : String)
  /-- `tuple` or `dict` raises. -/
  | conversion
  deriving DecidableEq

variable (py : Builtins V)

def missing (index : Nat) (key : String) : LoadError :=
  .manifestError ("manifest entry " ++ toString index ++ " is missing '" ++ key ++ "'")

/-- `_descriptor_from_entry` -/
def descriptorFromEntry (entry : List (String × V)) (index : Nat) : Except LoadError (ToolDescriptor V) :=
  match entry.lookup "name", entry.lookup "version" with
  | none, _ => .error (missing index "name")
  | some _, none => .error (missing index "version")
  | some name, some version =>
    let tuple (key : String) := ((entry.lookup key).map py.tuple).getD (some [])
    match tuple "capabilities", tuple "required_permissions", ((entry.lookup "schema").map py.dict).getD (some []) with
    | some capabilities, some requiredPermissions, some schema => .ok {
        name := py.str name
        version := py.str version
        description := ((entry.lookup "description").map py.str).getD ""
        capabilities, requiredPermissions, schema }
    | _, _, _ => .error .conversion

structure StaticManifestToolRegistry (V : Type) where
  tools : ToolDict V

namespace StaticManifestToolRegistry

/-- The loop over the entries, from the one at `index`. -/
def load (index : Nat) (tools : ToolDict V) : List V → Except LoadError (ToolDict V)
  | [] => .ok tools
  | entry :: entries =>
    match py.asDict entry with
    | none => .error (.manifestError ("manifest entry " ++ toString index ++ " must be an object"))
    | some entry =>
      match descriptorFromEntry py entry index with
      | .error e => .error e
      | .ok descriptor => load (index + 1) (tools.set descriptor.qualifiedName descriptor) entries

/-- A manifest that is `None` lists no tools, as an empty one. -/
def init (manifest : Option (List (String × V))) : Except LoadError (StaticManifestToolRegistry V) :=
  let entries := (((manifest.getD []).lookup "tools").map py.asList).getD (some [])
  match entries with
  | none => .error (.manifestError "manifest 'tools' must be a list")
  | some entries => (load py 0 .empty entries).map .mk

def register (r : StaticManifestToolRegistry V) (descriptor : ToolDescriptor V) : StaticManifestToolRegistry V :=
  ⟨r.tools.register descriptor⟩

def get (r : StaticManifestToolRegistry V) (name : String) (version : Option String) : Option (ToolDescriptor V) :=
  ToolDict.get r.tools name version

end StaticManifestToolRegistry

/-! ### What a registry keeps -/

/-- What the entries of a manifest from the one at `index` describe. -/
inductive Describes : Nat → List V → List (ToolDescriptor V) → Prop where
  | nil {index : Nat} : Describes index [] []
  | cons {index : Nat} {value : V} {entry : List (String × V)} {descriptor : ToolDescriptor V} {values : List V}
      {descriptors : List (ToolDescriptor V)} : py.asDict value = some entry →
      descriptorFromEntry py entry index = .ok descriptor → Describes (index + 1) values descriptors →
      Describes index (value :: values) (descriptor :: descriptors)

/-- The descriptors that a manifest lists. -/
def Lists (manifest : Option (List (String × V))) (descriptors : List (ToolDescriptor V)) : Prop :=
  ∃ entries, (((manifest.getD []).lookup "tools").map py.asList).getD (some []) = some entries ∧
    Describes py 0 entries descriptors

variable {py} {descriptors : List (ToolDescriptor V)} {manifest : Option (List (String × V))}

theorem exists_describes {index : Nat} {tools loaded : ToolDict V} {entries : List V}
    (h : StaticManifestToolRegistry.load py index tools entries = .ok loaded) :
    ∃ descriptors, Describes py index entries descriptors ∧ loaded = descriptors.foldl ToolDict.register tools := by
  induction entries generalizing index tools with
  | nil =>
    cases h
    exact ⟨[], .nil, rfl⟩
  | cons value entries ih =>
    rw [StaticManifestToolRegistry.load] at h
    cases dict : py.asDict value with
    | none =>
      rw [dict] at h
      cases h
    | some entry =>
      cases described : descriptorFromEntry py entry index with
      | error e =>
        simp only [dict, described] at h
        cases h
      | ok descriptor =>
        simp only [dict, described] at h
        obtain ⟨descriptors, rest, heq⟩ := ih h
        exact ⟨descriptor :: descriptors, .cons dict described rest, heq⟩

/-- A registry that a manifest begins is one that its descriptors were registered in. -/
theorem exists_lists {seeded : StaticManifestToolRegistry V}
    (h : StaticManifestToolRegistry.init py manifest = .ok seeded) :
    ∃ descriptors, Lists py manifest descriptors ∧ seeded.tools = descriptors.foldl ToolDict.register .empty := by
  unfold StaticManifestToolRegistry.init at h
  cases entries : (((manifest.getD []).lookup "tools").map py.asList).getD (some []) with
  | none =>
    simp only [entries] at h
    cases h
  | some values =>
    simp only [entries] at h
    cases loaded : StaticManifestToolRegistry.load py 0 .empty values with
    | error e =>
      rw [loaded] at h
      cases h
    | ok tools =>
      rw [loaded] at h
      cases h
      obtain ⟨descriptors, described, heq⟩ := exists_describes loaded
      exact ⟨descriptors, ⟨values, entries, described⟩, heq⟩

theorem foldl_register_static (seeded : StaticManifestToolRegistry V) (descriptors : List (ToolDescriptor V)) :
    (descriptors.foldl StaticManifestToolRegistry.register seeded).tools =
      descriptors.foldl ToolDict.register seeded.tools := by
  induction descriptors generalizing seeded with
  | nil => rfl
  | cons descriptor descriptors ih => exact ih (seeded.register descriptor)

theorem foldl_register_inMemory (r : InMemoryToolRegistry V) (descriptors : List (ToolDescriptor V)) :
    (descriptors.foldl InMemoryToolRegistry.register r).tools = descriptors.foldl ToolDict.register r.tools := by
  induction descriptors generalizing r with
  | nil => rfl
  | cons descriptor descriptors ih => exact ih (r.register descriptor)

/-- A key has what was registered under it last. -/
theorem get_registered (registered : List (ToolDescriptor V)) (key : String) :
    OrderedDict.get (registered.foldl ToolDict.register .empty) key =
      registered.reverse.find? fun d => d.qualifiedName = key := by
  induction registered using List.reverseRecOn with
  | nil => rfl
  | append_singleton registered d ih =>
    rw [List.foldl_append, List.reverse_append, List.reverse_singleton, List.singleton_append, List.find?_cons]
    by_cases h : d.qualifiedName = key
    · simp [ToolDict.register, h]
    · simp [ToolDict.register, h, Ne.symm h, ih]

end LlmGateway.Tools
