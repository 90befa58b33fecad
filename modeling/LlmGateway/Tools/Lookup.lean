import LlmGateway.Lib.Json
import LlmGateway.Lib.PyInt
import LlmGateway.Tools.Registry
import Mathlib.Data.List.Basic
import Mathlib.Data.List.Find
import Mathlib.Data.List.Lex

/-! When looking a tool up is exact, and finds its newest version. -/
namespace LlmGateway.Tools
open Lib
variable {V : Type}

/-! ### Exact, and newest -/

/-- The tool registered last of those with this name and this version. -/
def latest (registered : List (ToolDescriptor V)) (name version : String) : Option (ToolDescriptor V) :=
  registered.reverse.find? fun d => d.name = name ∧ d.version = version

def versionsOf (registered : List (ToolDescriptor V)) (name : String) : List String :=
  (registered.filter fun d => d.name = name).map ToolDescriptor.version

def decimal (piece : List Char) : Option Nat :=
  if piece ≠ [] ∧ piece.all fun c => '0' ≤ c && c ≤ '9' then some (PyInt.value PyInt.decimalDigit 10 piece) else none

/-- The numbers of a version, when it is numbers with dots between them. -/
def components (version : String) : Option (List Nat) := (version.toList.splitOn '.').mapM decimal

/-- Both are dotted numbers, and component by component the first is not the greater. -/
def notNewer (version version' : String) : Bool :=
  match components version, components version' with
  | some c, some c' => c ≤ c'
  | _, _ => false

def Dotted (versions : List String) : Prop := ∀ version ∈ versions, (components version).isSome

/-- What is answered, after tools have been registered. -/
structure LookupCorrect (registered : List (ToolDescriptor V))
    (get : String → Option String → Option (ToolDescriptor V)) : Prop where
  exact : ∀ name version, get name (some version) = latest registered name version
  newest : ∀ name, Dotted (versionsOf registered name) →
    match get name none with
    | none => versionsOf registered name = []
    | some d => latest registered name d.version = some d ∧
        ∀ version ∈ versionsOf registered name, notNewer version d.version = true

/-- No name and no version contains what separates them in a key. -/
def Separated (registered : List (ToolDescriptor V)) : Prop :=
  ∀ d ∈ registered, '@' ∉ d.name.toList ∧ '@' ∉ d.version.toList

/-- Of each tool's dotted versions, the greatest text is the greatest number. -/
def OrderedAsText (registered : List (ToolDescriptor V)) : Prop :=
  ∀ name, Dotted (versionsOf registered name) → ∀ greatest ∈ versionsOf registered name,
    (∀ version ∈ versionsOf registered name, version ≤ greatest) →
      ∀ version ∈ versionsOf registered name, notNewer version greatest = true

variable {registered : List (ToolDescriptor V)} {d : ToolDescriptor V} {name version name' version' : String}

/-! ### Keys -/

theorem key_toList : (name ++ "@" ++ version).toList = name.toList ++ '@' :: version.toList := by
  simp

/-- One separator tells a key's parts. -/
theorem key_inj (hname : '@' ∉ name.toList) (hversion : '@' ∉ version.toList) :
    name ++ "@" ++ version = name' ++ "@" ++ version' ↔ name = name' ∧ version = version' := by
  constructor
  · intro h
    have chars := congrArg String.toList h
    rw [key_toList, key_toList, List.append_cons_inj_of_notMem hname hversion] at chars
    exact ⟨String.toList_inj.mp chars.1, String.toList_inj.mp chars.2.2⟩
  · rintro ⟨rfl, rfl⟩
    rfl

/-- `_tools` once they are registered. -/
def kept (registered : List (ToolDescriptor V)) : ToolDict V := registered.foldl ToolDict.register .empty

theorem latest_spec (h : latest registered name version = some d) :
    d ∈ registered ∧ d.name = name ∧ d.version = version := by
  have found := List.find?_some h
  rw [decide_eq_true_eq] at found
  exact ⟨List.mem_reverse.mp (List.mem_of_find?_eq_some h), found⟩

/-- Whatever is registered is found under its key, or something that replaced it there. -/
theorem exists_get_kept (h : d ∈ registered) : ∃ d', OrderedDict.get (kept registered) d.qualifiedName = some d' := by
  rw [kept, get_registered, ← Option.isSome_iff_exists, List.find?_isSome]
  exact ⟨d, List.mem_reverse.mpr h, decide_eq_true rfl⟩

theorem get_kept_eq_latest (separated : Separated registered) (name version : String) :
    OrderedDict.get (kept registered) (name ++ "@" ++ version) = latest registered name version := by
  rw [kept, get_registered, latest]
  apply List.find?_congr
  intro d hm
  obtain ⟨hname, hversion⟩ := separated d (List.mem_reverse.mp hm)
  exact decide_eq_decide.mpr (key_inj hname hversion)

/-- A key that can be told apart in two ways is answered wrongly for one of them. -/
theorem not_exact (h : d ∈ registered) (same : name ++ "@" ++ version = d.qualifiedName) (other : name ≠ d.name) :
    ¬ ∀ name version, OrderedDict.get (kept registered) (name ++ "@" ++ version) = latest registered name version := by
  intro exact
  obtain ⟨d', found⟩ := exists_get_kept h
  have as_named := (exact d.name d.version).symm.trans found
  have as_other := (exact name version).symm.trans (same ▸ found)
  exact other ((latest_spec as_other).2.1.symm.trans (latest_spec as_named).2.1)

theorem exact_iff : (∀ name version, OrderedDict.get (kept registered) (name ++ "@" ++ version) =
    latest registered name version) ↔ Separated registered := by
  constructor
  · intro exact d hm
    constructor
    · intro inside
      obtain ⟨front, back, heq⟩ := List.append_of_mem inside
      refine not_exact hm (show String.ofList front ++ "@" ++ (String.ofList back ++ "@" ++ d.version) = _ from ?_) ?_
        exact
      · apply String.toList_inj.mp
        simp [ToolDescriptor.qualifiedName, heq]
      · intro same
        rw [← same, String.toList_ofList] at heq
        have longer := congrArg List.length heq
        rw [List.length_append, List.length_cons] at longer
        omega
    · intro inside
      obtain ⟨front, back, heq⟩ := List.append_of_mem inside
      refine not_exact hm (show d.name ++ "@" ++ String.ofList front ++ "@" ++ String.ofList back = _ from ?_) ?_ exact
      · apply String.toList_inj.mp
        simp [ToolDescriptor.qualifiedName, heq]
      · intro same
        have longer := congrArg (List.length ∘ String.toList) same
        simp at longer
  · exact fun separated name version => get_kept_eq_latest separated name version

/-! ### Versions -/

theorem mem_versionsOf :
    version ∈ versionsOf registered name ↔ ∃ d ∈ registered, d.name = name ∧ d.version = version := by
  simp [versionsOf, and_assoc]

/-- What is kept of a name is what was registered last for each of its versions. -/
theorem mem_kept (separated : Separated registered) : d ∈ (kept registered).values ↔
    latest registered d.name d.version = some d := by
  rw [OrderedDict.mem_values, ← get_kept_eq_latest separated]
  constructor
  · rintro ⟨key, found⟩
    have keyed := found
    rw [kept, get_registered] at keyed
    obtain rfl : d.qualifiedName = key := by simpa using List.find?_some keyed
    exact found
  · exact fun found => ⟨_, found⟩

theorem exists_latest (h : version ∈ versionsOf registered name) : ∃ d, latest registered name version = some d := by
  obtain ⟨d, hm, rfl, rfl⟩ := mem_versionsOf.mp h
  rw [latest, ← Option.isSome_iff_exists, List.find?_isSome]
  exact ⟨d, List.mem_reverse.mpr hm, decide_eq_true ⟨rfl, rfl⟩⟩

variable (name) in
/-- Without a version, the answer is the latest of the greatest text. -/
theorem get_none_spec (separated : Separated registered) : match ToolDict.get (kept registered) name none with
    | none => versionsOf registered name = []
    | some d => latest registered name d.version = some d ∧
        ∀ version ∈ versionsOf registered name, version ≤ d.version := by
  have kept_of : ∀ d, d ∈ (kept registered).values.filter (fun d => d.name = name) ↔
      d.name = name ∧ latest registered name d.version = some d := by
    intro d
    rw [List.mem_filter, mem_kept separated, decide_eq_true_eq, and_comm]
    exact and_congr_right fun heq => heq ▸ Iff.rfl
  have represented : ∀ version ∈ versionsOf registered name, ∃ d,
      d ∈ (kept registered).values.filter (fun d => d.name = name) ∧ d.version = version := by
    intro version hm
    obtain ⟨d, found⟩ := exists_latest hm
    obtain ⟨-, hname, hversion⟩ := latest_spec found
    exact ⟨d, (kept_of d).mpr ⟨hname, hversion ▸ found⟩, hversion⟩
  rw [ToolDict.get]
  split
  · next none =>
    rw [List.argmax_eq_none] at none
    refine List.eq_nil_iff_forall_not_mem.mpr fun version hm => ?_
    obtain ⟨d, there, -⟩ := represented version hm
    rw [none] at there
    cases there
  · next d found =>
    refine ⟨((kept_of d).mp (List.argmax_mem found)).2, fun version hm => ?_⟩
    obtain ⟨d', there, rfl⟩ := represented version hm
    exact List.le_of_mem_argmax there found

theorem newest_iff (separated : Separated registered) : (∀ name, Dotted (versionsOf registered name) →
    match ToolDict.get (kept registered) name none with
    | none => versionsOf registered name = []
    | some d => latest registered name d.version = some d ∧
        ∀ version ∈ versionsOf registered name, notNewer version d.version = true) ↔ OrderedAsText registered := by
  refine forall_congr' fun name => forall_congr' fun dotted => ?_
  have answered := get_none_spec name separated
  cases found : ToolDict.get (kept registered) name none with
  | none =>
    simp only [found] at answered ⊢
    rw [answered]
    exact iff_of_true rfl fun _ hm => absurd hm List.not_mem_nil
  | some d =>
    simp only [found] at answered ⊢
    obtain ⟨latest_d, greatest⟩ := answered
    obtain ⟨hm, hname, -⟩ := latest_spec latest_d
    have there : d.version ∈ versionsOf registered name := mem_versionsOf.mpr ⟨d, hm, hname, rfl⟩
    constructor
    · rintro ⟨-, newest⟩ version hv textually
      rw [le_antisymm (greatest version hv) (textually d.version there)]
      exact newest
    · exact fun ordered => ⟨latest_d, ordered d.version there greatest⟩

theorem lookup_correct_iff : LookupCorrect registered (ToolDict.get (kept registered)) ↔
    Separated registered ∧ OrderedAsText registered := by
  constructor
  · intro correct
    have separated := exact_iff.mp correct.exact
    exact ⟨separated, (newest_iff separated).mp correct.newest⟩
  · rintro ⟨separated, ordered⟩
    exact ⟨exact_iff.mpr separated, (newest_iff separated).mpr ordered⟩

/-- A registry that a manifest begins and one that is filled at runtime. -/
theorem registries_correct_iff {py : Builtins V} {manifest : Option (List (String × V))}
    {seeded : StaticManifestToolRegistry V} (loads : StaticManifestToolRegistry.init py manifest = .ok seeded) :
    ∃ seeds, Lists py manifest seeds ∧ ∀ registrations : List (ToolDescriptor V),
      (LookupCorrect (seeds ++ registrations) (registrations.foldl .register seeded).get ∧
        LookupCorrect (seeds ++ registrations)
          ((seeds ++ registrations).foldl .register InMemoryToolRegistry.init).get ∧
        (registrations.foldl .register seeded).get =
          ((seeds ++ registrations).foldl .register InMemoryToolRegistry.init).get) ↔
        Separated (seeds ++ registrations) ∧ OrderedAsText (seeds ++ registrations) := by
  obtain ⟨seeds, lists, heq⟩ := exists_lists loads
  refine ⟨seeds, lists, fun registrations => ?_⟩
  have seeded_tools : (registrations.foldl .register seeded).tools = kept (seeds ++ registrations) := by
    rw [foldl_register_static, heq, kept, List.foldl_append]
  have filled_tools : ((seeds ++ registrations).foldl .register InMemoryToolRegistry.init).tools =
      kept (seeds ++ registrations) := foldl_register_inMemory _ _
  have seeded_get : (registrations.foldl .register seeded).get = ToolDict.get (kept (seeds ++ registrations)) :=
    congrArg ToolDict.get seeded_tools
  have filled_get : ((seeds ++ registrations).foldl .register InMemoryToolRegistry.init).get =
      ToolDict.get (kept (seeds ++ registrations)) := congrArg ToolDict.get filled_tools
  rw [seeded_get, filled_get, lookup_correct_iff]
  tauto

/-- For manifests from JSON. What `str` makes of anything but a string is `other`. -/
def Builtins.json {F : Type} (other : Json F → String) : Builtins (Json F) where
  asDict
    | .obj members => some members
    | _ => none
  asList
    | .arr items => some items
    | _ => none
  str
    | .str s => s
    | value => other value
  tuple
    | .arr items => some items
    | _ => none
  dict
    | .obj members => some members
    | _ => none

theorem registries_correct_listed :
    ∃ seeded, StaticManifestToolRegistry.init (.json fun (_ : Json Empty) => "")
        (some [("tools", .arr [.obj [("name", .str "search"), ("version", .str "1.0.0")]])]) = .ok seeded ∧
      ∃ seeds, Lists (.json fun _ => "")
          (some [("tools", .arr [.obj [("name", .str "search"), ("version", .str "1.0.0")]])]) seeds ∧
        ∀ registrations : List (ToolDescriptor (Json Empty)),
          (LookupCorrect (seeds ++ registrations) (registrations.foldl .register seeded).get ∧
            LookupCorrect (seeds ++ registrations)
              ((seeds ++ registrations).foldl .register InMemoryToolRegistry.init).get ∧
            (registrations.foldl .register seeded).get =
              ((seeds ++ registrations).foldl .register InMemoryToolRegistry.init).get) ↔
            Separated (seeds ++ registrations) ∧ OrderedAsText (seeds ++ registrations) :=
  ⟨_, rfl, registries_correct_iff rfl⟩

/-- Two versions of one tool, and a tool whose name holds the separator. -/
theorem registries_not_correct :
    let versions : List (ToolDescriptor String) :=
      [⟨"search", "9.0.0", "", [], [], []⟩, ⟨"search", "10.0.0", "", [], [], []⟩]
    let named : List (ToolDescriptor String) := [⟨"search@web", "1.0.0", "", [], [], []⟩]
    (versions.foldl .register InMemoryToolRegistry.init).get "search" none = some ⟨"search", "9.0.0", "", [], [], []⟩ ∧
      ¬ LookupCorrect versions (versions.foldl .register InMemoryToolRegistry.init).get ∧
      (named.foldl .register InMemoryToolRegistry.init).get "search" (some "web@1.0.0") =
        some ⟨"search@web", "1.0.0", "", [], [], []⟩ ∧
      ¬ LookupCorrect named (named.foldl .register InMemoryToolRegistry.init).get := by
  refine ⟨by decide, fun correct => ?_, by decide, fun correct => ?_⟩
  · have dotted : ∀ version ∈ ["9.0.0", "10.0.0"], (components version).isSome := by decide
    obtain ⟨-, newest⟩ := correct.newest "search" dotted
    exact absurd (newest "10.0.0" (by decide)) (by decide)
  · exact absurd (correct.exact "search" "web@1.0.0") (by decide)

end LlmGateway.Tools
