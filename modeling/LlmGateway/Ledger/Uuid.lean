import LlmGateway.Ledger.Port
import LlmGateway.Lib.Text

/-! A uuid is told by what `str` prints. -/
namespace LlmGateway.Ledger
open Lib

private theorem digitChar_ne_dash : ∀ d < 16, Nat.digitChar d ≠ '-' := by decide

private theorem dash_dropped (l : List Char) : ('-' :: l).filter (· ≠ '-') = l.filter (· ≠ '-') :=
  List.filter_cons_of_neg (by decide)

private theorem group_joined {α : Type} (l : List α) (n m : Nat) :
    (l.drop n).take m ++ l.drop (n + m) = l.drop n := by
  have whole := List.take_append_drop m (l.drop n)
  rwa [List.drop_drop] at whole

theorem OrgId.str_toList (org : OrgId) : org.str.toList = (fixedDigits 16 32 org.toNat).take 8 ++ '-' ::
    ((fixedDigits 16 32 org.toNat).drop 8).take 4 ++ '-' :: ((fixedDigits 16 32 org.toNat).drop 12).take 4 ++
    '-' :: ((fixedDigits 16 32 org.toNat).drop 16).take 4 ++ '-' :: (fixedDigits 16 32 org.toNat).drop 20 :=
  String.toList_ofList

/-- The digits are what is left without the dashes. -/
theorem OrgId.str_digits (org : OrgId) :
    org.str.toList.filter (· ≠ '-') = fixedDigits 16 32 org.toNat := by
  have undashed : ∀ l : List Char, (∀ c ∈ l, c ∈ fixedDigits 16 32 org.toNat) → l.filter (· ≠ '-') = l := by
    intro l hl
    refine List.filter_eq_self.mpr fun c hc => decide_eq_true ?_
    rintro rfl
    exact notMem_fixedDigits (by decide) digitChar_ne_dash _ _ (hl _ hc)
  have first := undashed ((fixedDigits 16 32 org.toNat).take 8) fun c hc => List.mem_of_mem_take hc
  have group := fun n m => undashed (((fixedDigits 16 32 org.toNat).drop n).take m)
    fun c hc => List.mem_of_mem_drop (List.mem_of_mem_take hc)
  have last := undashed ((fixedDigits 16 32 org.toNat).drop 20) fun c hc => List.mem_of_mem_drop hc
  rw [OrgId.str_toList, List.filter_append, List.filter_append, List.filter_append, List.filter_append,
    dash_dropped, dash_dropped, dash_dropped, dash_dropped, first, group, group, group, last,
    List.append_assoc, List.append_assoc, List.append_assoc, group_joined, group_joined, group_joined,
    List.take_append_drop]

theorem OrgId.str_injective : Function.Injective OrgId.str := by
  intro a b h
  have digits : fixedDigits 16 32 a.toNat = fixedDigits 16 32 b.toNat := by
    rw [← OrgId.str_digits, ← OrgId.str_digits, h]
  have small : ∀ org : OrgId, org.toNat < 16 ^ 32 := fun org => org.isLt
  exact BitVec.eq_of_toNat_eq (fixedDigits_inj (by decide) (by decide) (small a) (small b) digits)

/-- Nothing but hexadecimal digits and dashes. -/
theorem OrgId.notMem_str {c : Char} (no_digit : ∀ d < 16, Nat.digitChar d ≠ c) (no_dash : c ≠ '-') (org : OrgId) :
    c ∉ org.str.toList := by
  intro hc
  have kept : c ∈ org.str.toList.filter (· ≠ '-') := List.mem_filter.mpr ⟨hc, decide_eq_true no_dash⟩
  rw [OrgId.str_digits] at kept
  exact notMem_fixedDigits (by decide) no_digit _ _ kept

end LlmGateway.Ledger
