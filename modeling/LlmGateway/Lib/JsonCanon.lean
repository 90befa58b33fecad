import LlmGateway.Lib.Json
import Mathlib.Data.List.Sort
import Mathlib.Data.String.Basic

/-! JSON values up to the order of object keys, and their form with the keys sorted. -/
namespace LlmGateway.Lib.Json

variable {F : Type}

/-- No object has a key twice, at any depth. -/
inductive Distinct : Json F → Prop where
  | null : Distinct .null
  | bool (b : Bool) : Distinct (.bool b)
  | int (n : Int) : Distinct (.int n)
  | float (x : F) : Distinct (.float x)
  | str (s : String) : Distinct (.str s)
  | arr {items : List (Json F)} (inner : ∀ item ∈ items, Distinct item) : Distinct (.arr items)
  | obj {members : Members F} (keys : (members.map Prod.fst).Nodup) (inner : ∀ member ∈ members, Distinct member.2) :
    Distinct (.obj members)

/-- The same structure, objects told by what their keys lead to. -/
inductive Same : Json F → Json F → Prop where
  | null : Same .null .null
  | bool (b : Bool) : Same (.bool b) (.bool b)
  | int (n : Int) : Same (.int n) (.int n)
  | float (x : F) : Same (.float x) (.float x)
  | str (s : String) : Same (.str s) (.str s)
  | arr {items items' : List (Json F)} (length : items.length = items'.length)
      (inner : ∀ (i : Nat) v v', items[i]? = some v → items'[i]? = some v' → Same v v') : Same (.arr items) (.arr items')
  | obj {members members' : Members F} (keys : ∀ key, (members.lookup key).isSome = (members'.lookup key).isSome)
      (inner : ∀ key v v', members.lookup key = some v → members'.lookup key = some v' → Same v v') :
    Same (.obj members) (.obj members')

def sortByKey (members : Members F) : Members F := members.insertionSort fun a b => a.1 ≤ b.1

mutual

/-- The keys of every object in order. -/
def canon : Json F → Json F
  | .null => .null
  | .bool b => .bool b
  | .int n => .int n
  | .float x => .float x
  | .str s => .str s
  | .arr items => .arr (canonItems items)
  | .obj members => .obj (sortByKey (canonMembers members))

def canonItems : List (Json F) → List (Json F)
  | [] => []
  | item :: items => canon item :: canonItems items

def canonMembers : Members F → Members F
  | [] => []
  | (key, value) :: members => (key, canon value) :: canonMembers members

end

private theorem canonItems_eq (items : List (Json F)) : canonItems items = items.map canon := by
  induction items with
  | nil => rfl
  | cons item items ih => rw [canonItems, ih, List.map_cons]

private theorem canonMembers_eq (members : Members F) :
    canonMembers members = members.map fun member => (member.1, canon member.2) := by
  induction members with
  | nil => rfl
  | cons member members ih => rw [canonMembers, ih, List.map_cons]

private theorem canonMembers_keys (members : Members F) :
    (canonMembers members).map Prod.fst = members.map Prod.fst := by
  rw [canonMembers_eq, List.map_map]
  rfl

theorem mem_of_lookup {members : Members F} {key : String} {v : Json F} (h : members.lookup key = some v) :
    (key, v) ∈ members := by
  induction members with
  | nil => cases h
  | cons member members ih =>
    obtain ⟨key', v'⟩ := member
    rw [List.lookup_cons] at h
    split at h
    next hkey =>
      cases h
      rw [beq_iff_eq] at hkey
      exact hkey ▸ List.mem_cons_self
    next => exact List.mem_cons_of_mem _ (ih h)

theorem lookup_iff {members : Members F} (keys : (members.map Prod.fst).Nodup) {key : String} {v : Json F} :
    members.lookup key = some v ↔ (key, v) ∈ members := by
  refine ⟨mem_of_lookup, fun h => ?_⟩
  induction members with
  | nil => cases h
  | cons member members ih =>
    obtain ⟨key', v'⟩ := member
    rw [List.map_cons, List.nodup_cons] at keys
    rw [List.lookup_cons]
    rcases List.mem_cons.mp h with heq | hm
    · cases heq
      rw [beq_self_eq_true]
    · have other : key ≠ key' := by
        rintro rfl
        exact keys.1 (List.mem_map.mpr ⟨_, hm, rfl⟩)
      rw [beq_eq_false_iff_ne.mpr other]
      exact ih keys.2 hm

/-- Sorting leaves the members, and members in one order are told by what they are. -/
theorem sortByKey_eq_iff {members members' : Members F} (keys : (members.map Prod.fst).Nodup) :
    sortByKey members = sortByKey members' ↔ members.Perm members' := by
  have perm : ∀ members : Members F, (sortByKey members).Perm members := fun members => List.perm_insertionSort _ _
  constructor
  · intro h
    exact (perm members).symm.trans (h ▸ perm members')
  · intro h
    have total : Std.Total fun a b : String × Json F => a.1 ≤ b.1 := ⟨fun a b => le_total a.1 b.1⟩
    have trans : IsTrans (String × Json F) fun a b => a.1 ≤ b.1 := ⟨fun _ _ _ => le_trans⟩
    have sorted : ∀ members : Members F, (sortByKey members).Pairwise fun a b => a.1 ≤ b.1 := fun members =>
      List.pairwise_insertionSort _ _
    refine List.Perm.eq_of_pairwise ?_ (sorted members) (sorted members')
      ((perm members).trans (h.trans (perm members').symm))
    rintro ⟨key, v⟩ ⟨key', v'⟩ hm hm' hle hge
    obtain rfl : key = key' := le_antisymm hle hge
    have one := (lookup_iff keys).mpr ((perm members).mem_iff.mp hm)
    have other := (lookup_iff keys).mpr (h.mem_iff.mpr ((perm members').mem_iff.mp hm'))
    rw [Option.some.inj (one.symm.trans other)]

private theorem mem_canonMembers {members : Members F} {key : String} {w : Json F} :
    (key, w) ∈ canonMembers members ↔ ∃ v, (key, v) ∈ members ∧ canon v = w := by
  rw [canonMembers_eq, List.mem_map]
  constructor
  · rintro ⟨⟨key', v⟩, hm, heq⟩
    cases heq
    exact ⟨v, hm, rfl⟩
  · rintro ⟨v, hm, rfl⟩
    exact ⟨(key, v), hm, rfl⟩

section Objects
variable {members members' : Members F} (keys : (members.map Prod.fst).Nodup) (keys' : (members'.map Prod.fst).Nodup)

include keys' in
/-- A key leads to a value on the left, so to one with the same form on the right. -/
private theorem lookup_of_perm (h : (canonMembers members).Perm (canonMembers members')) {key : String} {v : Json F}
    (found : members.lookup key = some v) : ∃ v', members'.lookup key = some v' ∧ canon v' = canon v := by
  have here := mem_canonMembers.mpr ⟨v, mem_of_lookup found, rfl⟩
  obtain ⟨v', hm, heq⟩ := mem_canonMembers.mp (h.mem_iff.mp here)
  exact ⟨v', (lookup_iff keys').mpr hm, heq⟩

include keys keys'

private theorem same_of_perm (h : (canonMembers members).Perm (canonMembers members'))
    (inner : ∀ key v v', (key, v) ∈ members → (key, v') ∈ members' → canon v = canon v' → Same v v') :
    Same (.obj members) (.obj members') := by
  refine .obj (fun key => ?_) fun key v v' found found' => ?_
  · refine Bool.eq_iff_iff.mpr ⟨fun some => ?_, fun some => ?_⟩
    · obtain ⟨v, found⟩ := Option.isSome_iff_exists.mp some
      obtain ⟨v', found', -⟩ := lookup_of_perm keys' h found
      exact Option.isSome_iff_exists.mpr ⟨v', found'⟩
    · obtain ⟨v', found'⟩ := Option.isSome_iff_exists.mp some
      obtain ⟨v, found, -⟩ := lookup_of_perm keys h.symm found'
      exact Option.isSome_iff_exists.mpr ⟨v, found⟩
  · obtain ⟨w, found_w, heq⟩ := lookup_of_perm keys' h found
    cases found'.symm.trans found_w
    exact inner key v v' (mem_of_lookup found) (mem_of_lookup found') heq.symm

private theorem perm_of_same (present : ∀ key, (members.lookup key).isSome = (members'.lookup key).isSome)
    (inner : ∀ key v v', members.lookup key = some v → members'.lookup key = some v' → canon v = canon v') :
    (canonMembers members).Perm (canonMembers members') := by
  have nodup : ∀ {l : Members F}, (l.map Prod.fst).Nodup → (canonMembers l).Nodup := by
    intro l h
    rw [← canonMembers_keys] at h
    exact h.of_map
  refine (List.perm_ext_iff_of_nodup (nodup keys) (nodup keys')).mpr fun ⟨key, w⟩ => ?_
  rw [mem_canonMembers, mem_canonMembers]
  constructor
  · rintro ⟨v, hm, rfl⟩
    have found := (lookup_iff keys).mpr hm
    obtain ⟨v', found'⟩ := Option.isSome_iff_exists.mp ((present key).symm.trans (Option.isSome_of_mem found))
    exact ⟨v', mem_of_lookup found', (inner key v v' found found').symm⟩
  · rintro ⟨v', hm, rfl⟩
    have found' := (lookup_iff keys').mpr hm
    obtain ⟨v, found⟩ := Option.isSome_iff_exists.mp ((present key).trans (Option.isSome_of_mem found'))
    exact ⟨v, mem_of_lookup found, inner key v v' found found'⟩

end Objects

theorem same_of_canon_eq {a b : Json F} (ha : Distinct a) (hb : Distinct b) (h : canon a = canon b) : Same a b := by
  induction a using induct generalizing b with
  | null | bool | int | float | str =>
    cases b with
    | null | bool | int | float | str =>
      first
        | cases h; constructor
        | cases h
    | arr | obj => cases h
  | arr items ih =>
    cases b with
    | arr items' =>
      cases ha with
      | arr inner =>
      cases hb with
      | arr inner' =>
      rw [canon, canon, canonItems_eq, canonItems_eq] at h
      have mapped := Json.arr.inj h
      refine .arr (by simpa using congrArg List.length mapped) fun i v v' hv hv' => ?_
      have at_i := congrArg (fun l => l[i]?) mapped
      simp only [List.getElem?_map, hv, hv', Option.map_some, Option.some.injEq] at at_i
      have hm := List.mem_of_getElem? hv
      exact ih v hm (inner v hm) (inner' v' (List.mem_of_getElem? hv')) at_i
    | null | bool | int | float | str | obj => cases h
  | obj members ih =>
    cases b with
    | obj members' =>
      cases ha with
      | obj keys inner =>
      cases hb with
      | obj keys' inner' =>
      rw [canon, canon] at h
      have perm := (sortByKey_eq_iff (by rwa [canonMembers_keys])).mp (Json.obj.inj h)
      refine same_of_perm keys keys' perm fun key v v' hm hm' heq => ?_
      exact ih (key, v) hm (inner (key, v) hm) (inner' (key, v') hm') heq
    | null | bool | int | float | str | arr => cases h

theorem canon_eq_of_same {a b : Json F} (ha : Distinct a) (hb : Distinct b) (h : Same a b) : canon a = canon b := by
  induction h with
  | null | bool | int | float | str => rfl
  | arr length inner ih =>
    cases ha with
    | arr distinct =>
    cases hb with
    | arr distinct' =>
    rw [canon, canon, canonItems_eq, canonItems_eq]
    refine congrArg Json.arr (List.ext_getElem (by simpa using length) fun i hi hi' => ?_)
    rw [List.length_map] at hi hi'
    rw [List.getElem_map, List.getElem_map]
    exact ih i _ _ (List.getElem?_eq_getElem hi) (List.getElem?_eq_getElem hi') (distinct _ (List.getElem_mem hi))
      (distinct' _ (List.getElem_mem hi'))
  | obj present inner ih =>
    cases ha with
    | obj keys distinct =>
    cases hb with
    | obj keys' distinct' =>
    rw [canon, canon]
    refine congrArg Json.obj ((sortByKey_eq_iff (by rwa [canonMembers_keys])).mpr (perm_of_same keys keys' present ?_))
    intro key v v' found found'
    exact ih key v v' found found' (distinct _ (mem_of_lookup found)) (distinct' _ (mem_of_lookup found'))

/-- The sorted form tells a value exactly up to the order of its keys. -/
theorem canon_eq_iff {a b : Json F} (ha : Distinct a) (hb : Distinct b) : canon a = canon b ↔ Same a b :=
  ⟨same_of_canon_eq ha hb, canon_eq_of_same ha hb⟩

end LlmGateway.Lib.Json
