import LlmGateway.Audit.Chain
import LlmGateway.Ledger.Uuid
import LlmGateway.Lib.JsonCanon

/-! What the digest of an audit row tells apart. The decision is outside it, a missing detail or predecessor
reads as an empty one, and an action or a detail may hold the separator. -/
namespace LlmGateway.Audit
open Ledger Lib

section Encoding

/-- The separator, as the character it is. -/
private def unit : Char := '\x1f'

private theorem unit_not_digit {b : Nat} (pos : 0 < b) (base : b ≤ 16) (w n : Nat) :
    unit ∉ fixedDigits b w n := by
  have no_digit : ∀ d < 16, Nat.digitChar d ≠ unit := by decide
  exact notMem_fixedDigits pos (fun d hd => no_digit d (hd.trans_le base)) w n

private theorem pad_toList (w n : Nat) : (pad w n).toList = fixedDigits 10 w n := String.toList_ofList

private theorem pad_append_inj {w n m : Nat} {r r' : List Char}
    (h : fixedDigits 10 w n ++ r = fixedDigits 10 w m ++ r') (hn : n < 10 ^ w) (hm : m < 10 ^ w) :
    n = m ∧ r = r' := by
  obtain ⟨digits, rest⟩ := List.append_inj h (by rw [fixedDigits_length, fixedDigits_length])
  exact ⟨fixedDigits_inj (by decide) (by decide) hn hm digits, rest⟩

private theorem mark_pad_append_inj {mark : List Char} {w n m : Nat} {r r' : List Char}
    (h : mark ++ (fixedDigits 10 w n ++ r) = mark ++ (fixedDigits 10 w m ++ r')) (hn : n < 10 ^ w)
    (hm : m < 10 ^ w) : n = m ∧ r = r' :=
  pad_append_inj (List.append_cancel_left h) hn hm

theorem isoformat_injective : Function.Injective DateTime.isoformat := by
  intro t u h
  obtain ⟨y, mo, d, hh, mi, s, us, date, time⟩ := t
  obtain ⟨y', mo', d', hh', mi', s', us', date', time'⟩ := u
  have text := congrArg String.toList h
  simp only [DateTime.isoformat, String.toList_append, pad_toList, List.append_assoc] at text
  obtain ⟨rfl, afterYear⟩ := pad_append_inj text (by omega) (by omega)
  obtain ⟨rfl, afterMonth⟩ := mark_pad_append_inj afterYear (by omega) (by omega)
  obtain ⟨rfl, afterDay⟩ := mark_pad_append_inj afterMonth (by omega) (by omega)
  obtain ⟨rfl, afterHour⟩ := mark_pad_append_inj afterDay (by omega) (by omega)
  obtain ⟨rfl, afterMinute⟩ := mark_pad_append_inj afterHour (by omega) (by omega)
  obtain ⟨rfl, afterSecond⟩ := mark_pad_append_inj afterMinute (by omega) (by omega)
  have micro := List.append_cancel_right afterSecond
  have same : us = us' := by
    by_cases hz : us = 0 <;> by_cases hz' : us' = 0
    · rw [hz, hz']
    · simp [hz, hz'] at micro
    · simp [hz, hz'] at micro
    · simp only [hz, hz', if_false, String.toList_append, pad_toList] at micro
      exact fixedDigits_inj (by decide) (by decide) (by omega) (by omega) (List.append_cancel_left micro)
  subst same
  rfl

theorem isoformat_plain (t : DateTime) : unit ∉ t.isoformat.toList := by
  have digits : ∀ w n, unit ∉ fixedDigits 10 w n := unit_not_digit (by decide) (by decide)
  have marks : unit ∉ "-".toList ∧ unit ∉ "T".toList ∧ unit ∉ ":".toList ∧ unit ∉ "+00:00".toList ∧
      unit ∉ ".".toList := by decide
  obtain ⟨dash, tee, colon, zone, dot⟩ := marks
  have micro : unit ∉ (if t.microsecond = 0 then "" else "." ++ pad 6 t.microsecond).toList := by
    split_ifs
    · exact List.not_mem_nil
    · simp only [String.toList_append, List.mem_append, pad_toList, dot, digits, or_self, not_false_eq_true]
  simp only [DateTime.isoformat, String.toList_append, List.mem_append, pad_toList, digits, dash, tee, colon, zone,
    micro, or_self, not_false_eq_true]

theorem hex_injective : Function.Injective hex := by
  intro bytes bytes' h
  have digits : (bytes.flatMap fun b => fixedDigits 16 2 b.toNat) =
      bytes'.flatMap fun b => fixedDigits 16 2 b.toNat := String.ofList_injective h
  have each : Function.Injective fun b : UInt8 => fixedDigits 16 2 b.toNat := by
    intro b b' hb
    have small : ∀ b : UInt8, b.toNat < 16 ^ 2 := fun b => b.toNat_lt
    exact UInt8.toNat_inj.mp (fixedDigits_inj (by decide) (by decide) (small b) (small b') hb)
  exact flatMap_injective (by decide) (fun b => fixedDigits_length 16 2 b.toNat) each digits

theorem hex_plain (bytes : List UInt8) : unit ∉ (hex bytes).toList := by
  rw [hex, String.toList_ofList, List.mem_flatMap]
  rintro ⟨b, -, hb⟩
  exact unit_not_digit (by decide) (by decide) _ _ hb

end Encoding
/-- What the digest is taken over of an action, a result and a detail. -/
structure Parts where
  action : String
  result : AuditResult
  detail : String
  deriving DecidableEq

/-- The action of `q` goes on where that of `p` ends, with the separator, the result of `p` and
perhaps more behind another separator; the detail of `p` begins with that, and has the result and the
detail of `q` behind separators. -/
def Shifted (p q : Parts) : Prop :=
  q.action = p.action ++ sep ++ p.result.value ∧ p.detail = q.result.value ++ sep ++ q.detail ∨
    ∃ more, q.action = p.action ++ sep ++ p.result.value ++ sep ++ more ∧
      p.detail = more ++ sep ++ q.result.value ++ sep ++ q.detail

def Contents.parts (c : Contents) : Parts := ⟨c.action, c.result, c.detail.detail.getD ""⟩

/-- The bytes of the predecessor's digest, as the column holds them. -/
def Contents.prevBytes (c : Contents) : Option (List UInt8) := c.prevHash.map (·.bytes)

/-- Two contents the digest does not tell apart, though they differ: in the decision, in an empty
detail for none, or by a separator within the action and the detail. -/
structure Confused (c c' : Contents) : Prop where
  prevHash : c.prevHash = c'.prevHash
  organizationId : c.organizationId = c'.organizationId
  actorType : c.actorType = c'.actorType
  actorId : c.actorId = c'.actorId
  createdAt : c.createdAt = c'.createdAt
  text : c.parts = c'.parts ∧ c.detail ≠ c'.detail ∨ Shifted c.parts c'.parts ∨ Shifted c'.parts c.parts

def AuthAuditEvent.parts (event : AuthAuditEvent) : Parts :=
  ⟨event.action, auditResult event.result, event.detail.getD ""⟩

/-- What is recorded of two events, each with its tenant, predecessor and time, is confused. -/
structure ConfusedEvents (event event' : AuthAuditEvent) (org org' : OrgId) (prevHash prevHash' : Option Digest)
    (createdAt createdAt' : DateTime) : Prop where
  prevHash : prevHash = prevHash'
  organizationId : org = org'
  principalType : actorType event.principalType = actorType event'.principalType
  subjectId : event.subjectId = event'.subjectId
  createdAt : createdAt = createdAt'
  text : event.parts = event'.parts ∧ (event.result ≠ event'.result ∨ event.detail ≠ event'.detail) ∨
    Shifted event.parts event'.parts ∨ Shifted event'.parts event.parts

section Columns
variable {F : Type}

/-- A row's columns as their types admit them, whoever wrote them: any bytes, any JSON. -/
structure Columns (F : Type) where
  organizationId : OrgId
  actorType : Option PrincipalType
  actorId : Option Uuid
  action : String
  result : AuditResult
  detail : Json F
  distinct : detail.Distinct
  prevHash : Option (List UInt8)
  createdAt : DateTime

/-- `jsonb` does not tell one order of an object's members from another. -/
structure Columns.Same (c c' : Columns F) : Prop where
  organizationId : c.organizationId = c'.organizationId
  actorType : c.actorType = c'.actorType
  actorId : c.actorId = c'.actorId
  action : c.action = c'.action
  result : c.result = c'.result
  detail : c.detail.Same c'.detail
  prevHash : c.prevHash = c'.prevHash
  createdAt : c.createdAt = c'.createdAt

/-- The `detail` column as it is written. -/
def AuditDetail.json (d : AuditDetail) : Json F :=
  .obj (("decision", .str d.decision) :: (d.detail.map fun detail => ("detail", Json.str detail)).toList)

theorem AuditDetail.json_distinct (d : AuditDetail) : (d.json : Json F).Distinct := by
  obtain ⟨decision, detail⟩ := d
  cases detail with
  | none => exact .obj (by simp) (by simp [Json.Distinct.str])
  | some detail => exact .obj (by simp) (by simp [Json.Distinct.str])

def Contents.columns (c : Contents) : Columns F where
  organizationId := c.organizationId
  actorType := c.actorType
  actorId := c.actorId
  action := c.action
  result := c.result
  detail := c.detail.json
  distinct := c.detail.json_distinct
  prevHash := c.prevBytes
  createdAt := c.createdAt

variable (zero : F → Bool)

/-- What Python takes for false. -/
def falsy : Json F → Bool
  | .null => true
  | .bool b => !b
  | .int n => n = 0
  | .float x => zero x
  | .str s => s = ""
  | .arr items => items.isEmpty
  | .obj members => members.isEmpty

/-- `detail or ""` for the detail that a column holds: `none` where there is none to read, or none to join. -/
def readDetail : Json F → Option String
  | .obj members =>
    match members.lookup "detail" with
    | none => some ""
    | some (.str detail) => some detail
    | some other => if falsy zero other then some "" else none
  | _ => none

/-- The digest of what the columns hold, where they have one. -/
def Columns.chainEntryHash (sha256 : String → Digest) (c : Columns F) : Option Digest :=
  (readDetail zero c.detail).map fun detail =>
    Audit.chainEntryHash sha256 c.prevHash c.organizationId (c.actorType.map (·.value)) c.actorId c.action
      c.result.value (some detail) c.createdAt

/-- Columns that differ from those of a row, though the digest does not tell: also by no predecessor for an
empty one, and by what else the detail holds. -/
structure ConfusedColumns (changed : Columns F) (row : Contents) : Prop where
  prevHash : changed.prevHash.getD [] = row.prevBytes.getD []
  organizationId : changed.organizationId = row.organizationId
  actorType : changed.actorType = row.actorType
  actorId : changed.actorId = row.actorId
  createdAt : changed.createdAt = row.createdAt
  text : ∃ detail, readDetail zero changed.detail = some detail ∧
    (⟨changed.action, changed.result, detail⟩ = row.parts ∧
        (changed.prevHash ≠ row.prevBytes ∨ ¬ changed.detail.Same row.detail.json) ∨
      Shifted ⟨changed.action, changed.result, detail⟩ row.parts ∨
      Shifted row.parts ⟨changed.action, changed.result, detail⟩)

end Columns

section Text

private theorem value_plain (r : AuditResult) : unit ∉ r.value.toList := by
  cases r <;> decide

private theorem value_injective : Function.Injective AuditResult.value := by
  intro r r' h
  cases r <;> cases r' <;> first | rfl | exact absurd h (by decide)

/-- How the text of a free part, a plain one and a free one goes on where another's free part ends. -/
private theorem parts_longer {x r r' d d' : List Char} (hr : unit ∉ r)  (hr' : unit ∉ r')
    (h : unit :: (r ++ unit :: d) = x ++ unit :: (r' ++ unit :: d')) :
    (x = [] ∧ r = r' ∧ d = d') ∨ (x = unit :: r ∧ d = r' ++ unit :: d') ∨
      ∃ m, x = unit :: (r ++ unit :: m) ∧ d = m ++ unit :: (r' ++ unit :: d') := by
  cases x with
  | nil =>
    obtain ⟨hr, hd⟩ := append_separator_inj hr hr' (List.tail_eq_of_cons_eq h)
    exact .inl ⟨rfl, hr, hd⟩
  | cons u x =>
    obtain ⟨rfl, behind⟩ := List.cons.inj h
    rcases List.append_eq_append_iff.mp behind with ⟨e, rfl, he⟩ | ⟨e, rfl, he⟩
    · cases e with
      | nil => exact .inr (.inl ⟨by rw [List.append_nil], List.tail_eq_of_cons_eq he⟩)
      | cons v m =>
        obtain ⟨rfl, rest⟩ := List.cons.inj he
        exact .inr (.inr ⟨m, rfl, rest⟩)
    · cases e with
      | nil => exact .inr (.inl ⟨by rw [List.append_nil], (List.tail_eq_of_cons_eq he).symm⟩)
      | cons v m =>
        obtain ⟨rfl, -⟩ := List.cons.inj he
        exact absurd (List.mem_append_right _ List.mem_cons_self) hr

/-- The text of the parts. -/
private def freeText (p : Parts) : List Char :=
  p.action.toList ++ unit :: (p.result.value.toList ++ unit :: p.detail.toList)

private theorem shifted_iff (p q : Parts) : Shifted p q ↔
    (q.action.toList = p.action.toList ++ unit :: p.result.value.toList ∧
      p.detail.toList = q.result.value.toList ++ unit :: q.detail.toList) ∨
    ∃ m, q.action.toList = p.action.toList ++ unit :: (p.result.value.toList ++ unit :: m) ∧
      p.detail.toList = m ++ unit :: (q.result.value.toList ++ unit :: q.detail.toList) := by
  have mark : sep.toList = [unit] := rfl
  have more : (∃ more, q.action = p.action ++ sep ++ p.result.value ++ sep ++ more ∧
      p.detail = more ++ sep ++ q.result.value ++ sep ++ q.detail) ↔
      ∃ m, q.action.toList = p.action.toList ++ unit :: (p.result.value.toList ++ unit :: m) ∧
        p.detail.toList = m ++ unit :: (q.result.value.toList ++ unit :: q.detail.toList) := by
    constructor
    · rintro ⟨more, action, detail⟩
      refine ⟨more.toList, ?_, ?_⟩
      · rw [action]
        simp [mark]
      · rw [detail]
        simp [mark]
    · rintro ⟨m, action, detail⟩
      refine ⟨String.ofList m, String.toList_injective ?_, String.toList_injective ?_⟩
      · simp [mark, action]
      · simp [mark, detail]
  rw [Shifted, more, ← String.toList_inj, ← String.toList_inj]
  simp [mark]

/-- Parts whose action goes on where that of others ends are those shifted, if not the same. -/
private theorem shifted_of_longer {p q : Parts} {x : List Char} (longer : q.action.toList = p.action.toList ++ x)
    (h : unit :: (p.result.value.toList ++ unit :: p.detail.toList) =
      x ++ unit :: (q.result.value.toList ++ unit :: q.detail.toList)) : p = q ∨ Shifted p q := by
  rw [shifted_iff, longer]
  rcases parts_longer (value_plain _) (value_plain _) h with ⟨rfl, hr, hd⟩ | ⟨rfl, hd⟩ | ⟨m, rfl, hd⟩
  · obtain ⟨action, result, detail⟩ := p
    obtain ⟨action', result', detail'⟩ := q
    rw [List.append_nil] at longer
    cases String.toList_injective longer
    cases value_injective (String.toList_injective hr)
    cases String.toList_injective hd
    exact .inl rfl
  · exact .inr (.inl ⟨rfl, hd⟩)
  · exact .inr (.inr ⟨m, rfl, hd⟩)

private theorem freeText_of_shifted {p q : Parts} (h : Shifted p q) : freeText p = freeText q := by
  rw [freeText, freeText]
  rcases (shifted_iff p q).mp h with ⟨action, detail⟩ | ⟨m, action, detail⟩ <;>
  · rw [action, detail]
    simp only [List.append_assoc, List.cons_append]

/-- Parts of the same text are the same, or the one are the others shifted. -/
private theorem freeText_eq_iff (p q : Parts) :
    freeText p = freeText q ↔ p = q ∨ Shifted p q ∨ Shifted q p := by
  constructor
  · intro h
    rcases List.append_eq_append_iff.mp h with ⟨x, longer, h⟩ | ⟨x, longer, h⟩
    · exact (shifted_of_longer longer h).imp_right .inl
    · exact (shifted_of_longer longer h).imp Eq.symm .inr
  · rintro (rfl | shifted | shifted)
    · rfl
    · exact freeText_of_shifted shifted
    · exact (freeText_of_shifted shifted).symm

/-- Shifted parts have a longer action. -/
private theorem shifted_action_ne {p q : Parts} (h : Shifted p q) : p.action ≠ q.action := by
  intro same
  rcases (shifted_iff p q).mp h with ⟨action, -⟩ | ⟨m, action, -⟩ <;>
  · have length := congrArg List.length action
    rw [same, List.length_append, List.length_cons] at length
    omega

/-- What the digest is taken over. -/
private structure Hashed where
  prevHash : List UInt8
  organizationId : OrgId
  actorType : Option PrincipalType
  actorId : Option Uuid
  parts : Parts
  createdAt : DateTime

/-- The digest's text. -/
private def canonical (h : Hashed) : String :=
  sep.intercalate [hex h.prevHash, h.organizationId.str, (h.actorType.map PrincipalType.value).getD "",
    (h.actorId.map OrgId.str).getD "", h.parts.action, h.parts.result.value, h.parts.detail, h.createdAt.isoformat]

/-- Columns that hold no separator stand around the free part. -/
private theorem canonical_toList (h : Hashed) : (canonical h).toList =
    (hex h.prevHash).toList ++ unit :: (h.organizationId.str.toList ++ unit ::
      (((h.actorType.map PrincipalType.value).getD "").toList ++ unit ::
        (((h.actorId.map OrgId.str).getD "").toList ++ unit ::
          (freeText h.parts ++ unit :: h.createdAt.isoformat.toList)))) := by
  have mark : sep.toList = [unit] := rfl
  change (hex h.prevHash ++ sep ++ h.organizationId.str ++ sep ++ (h.actorType.map PrincipalType.value).getD "" ++
    sep ++ (h.actorId.map OrgId.str).getD "" ++ sep ++ h.parts.action ++ sep ++ h.parts.result.value ++ sep ++
    h.parts.detail ++ sep ++ h.createdAt.isoformat).toList = _
  simp [mark, freeText]

/-- A column that may be NULL, and reads as an empty text then. -/
private theorem getD_injective {α : Type} {f : α → String} (inj : Function.Injective f) (some : ∀ a, f a ≠ "") :
    Function.Injective fun o : Option α => (o.map f).getD "" := by
  intro o o' h
  cases o with
  | none =>
    cases o' with
    | none => rfl
    | some a => exact absurd h.symm (some a)
  | some a =>
    cases o' with
    | none => exact absurd h (some a)
    | some a' => rw [inj h]

private theorem getD_plain {α : Type} {f : α → String} (plain : ∀ a, unit ∉ (f a).toList) (o : Option α) :
    unit ∉ ((o.map f).getD "").toList := by
  cases o with
  | none => exact List.not_mem_nil
  | some a => exact plain a

private theorem str_plain (org : OrgId) : unit ∉ org.str.toList :=
  OrgId.notMem_str (by decide) (by decide) org

private theorem str_nonempty (org : OrgId) : org.str ≠ "" := by
  intro h
  have text := congrArg (List.length ∘ String.toList) h
  rw [Function.comp_apply, OrgId.str_toList] at text
  simp at text

private theorem principal_injective : Function.Injective PrincipalType.value := by
  intro p q h
  cases p <;> cases q <;> first | rfl | exact absurd h (by decide)

private theorem principal_plain (p : PrincipalType) : unit ∉ p.value.toList := by
  cases p <;> decide

private theorem principal_nonempty (p : PrincipalType) : p.value ≠ "" := by
  cases p <;> decide

/-- The columns around the free part are told apart. -/
private theorem canonical_eq_iff (h h' : Hashed) : canonical h = canonical h' ↔
    (h.prevHash = h'.prevHash ∧ h.organizationId = h'.organizationId ∧ h.actorType = h'.actorType ∧
      h.actorId = h'.actorId ∧ h.createdAt = h'.createdAt) ∧
    (h.parts = h'.parts ∨ Shifted h.parts h'.parts ∨ Shifted h'.parts h.parts) := by
  rw [← freeText_eq_iff, ← String.toList_inj, canonical_toList, canonical_toList]
  constructor
  · intro text
    obtain ⟨prevHash, text₁⟩ := append_separator_inj (hex_plain _) (hex_plain _) text
    obtain ⟨organization, text₂⟩ := append_separator_inj (str_plain _) (str_plain _) text₁
    obtain ⟨actorType, text₃⟩ := append_separator_inj (getD_plain principal_plain _)
      (getD_plain principal_plain _) text₂
    obtain ⟨actorId, text₄⟩ := append_separator_inj (getD_plain str_plain _) (getD_plain str_plain _) text₃
    obtain ⟨free, createdAt⟩ := append_separator_inj_last (isoformat_plain _) (isoformat_plain _) text₄
    refine ⟨⟨?_, ?_, ?_, ?_, ?_⟩, free⟩
    · exact hex_injective (String.toList_injective prevHash)
    · exact OrgId.str_injective (String.toList_injective organization)
    · exact getD_injective principal_injective principal_nonempty (String.toList_injective actorType)
    · exact getD_injective OrgId.str_injective str_nonempty (String.toList_injective actorId)
    · exact isoformat_injective (String.toList_injective createdAt)
  · rintro ⟨⟨prevHash, organizationId, actorType, actorId, createdAt⟩, text⟩
    rw [prevHash, organizationId, actorType, actorId, createdAt, text]

private def Contents.hashed (c : Contents) : Hashed :=
  ⟨c.prevBytes.getD [], c.organizationId, c.actorType, c.actorId, c.parts, c.createdAt⟩

private theorem hex_getD (bytes : Option (List UInt8)) : (bytes.map hex).getD "" = hex (bytes.getD []) := by
  cases bytes with
  | none => rfl
  | some bytes => rfl

private theorem chainEntryHash_eq (sha256 : String → Digest) (c : Contents) :
    c.chainEntryHash sha256 = sha256 (canonical c.hashed) := by
  rw [Contents.chainEntryHash, chainEntryHash, hex_getD]
  rfl

/-- A digest is never empty. -/
private theorem prevBytes_injective {c c' : Contents} (h : c.prevBytes.getD [] = c'.prevBytes.getD []) :
    c.prevHash = c'.prevHash := by
  obtain ⟨_, _, _, _, _, _, prevHash, _⟩ := c
  obtain ⟨_, _, _, _, _, _, prevHash', _⟩ := c'
  cases prevHash with
  | none =>
    cases prevHash' with
    | none => rfl
    | some d => exact absurd h.symm d.nonempty
  | some d =>
    cases prevHash' with
    | none => exact absurd h d.nonempty
    | some d' =>
      obtain ⟨bytes, _⟩ := d
      cases h
      rfl

/-- Contents are confused when they differ and the digest's text does not. -/
private theorem confused_iff (c c' : Contents) : Confused c c' ↔ canonical c.hashed = canonical c'.hashed ∧ c ≠ c' := by
  rw [canonical_eq_iff]
  constructor
  · rintro ⟨prevHash, organizationId, actorType, actorId, createdAt, text⟩
    refine ⟨⟨⟨?_, organizationId, actorType, actorId, createdAt⟩, text.imp_left And.left⟩, ?_⟩
    · exact congrArg (fun prevHash : Option Digest => (prevHash.map (·.bytes)).getD []) prevHash
    · rintro rfl
      rcases text with ⟨-, differ⟩ | shifted | shifted
      · exact differ rfl
      · exact shifted_action_ne shifted rfl
      · exact shifted_action_ne shifted rfl
  · rintro ⟨⟨⟨prevHash, organizationId, actorType, actorId, createdAt⟩, text⟩, differ⟩
    have prevHash := prevBytes_injective prevHash
    refine ⟨prevHash, organizationId, actorType, actorId, createdAt, text.imp_left fun parts => ⟨parts, ?_⟩⟩
    intro detail
    obtain ⟨action, result, -⟩ := Parts.mk.inj parts
    obtain ⟨_, _, _, _, _, _, _, _⟩ := c
    obtain ⟨_, _, _, _, _, _, _, _⟩ := c'
    exact differ (by congr)

variable {F : Type} (zero : F → Bool)

private def Columns.hashed (c : Columns F) (detail : String) : Hashed :=
  ⟨c.prevHash.getD [], c.organizationId, c.actorType, c.actorId, ⟨c.action, c.result, detail⟩, c.createdAt⟩

private theorem columns_chainEntryHash_eq (sha256 : String → Digest) (c : Columns F) :
    c.chainEntryHash zero sha256 = (readDetail zero c.detail).map fun detail => sha256 (canonical (c.hashed detail)) := by
  rw [Columns.chainEntryHash]
  simp only [chainEntryHash, hex_getD]
  rfl

/-- What is read of a detail is what was written. -/
private theorem readDetail_json (d : AuditDetail) : readDetail zero d.json = some (d.detail.getD "") := by
  obtain ⟨decision, detail⟩ := d
  cases detail with
  | none => rfl
  | some detail => rfl

/-- Columns that nobody changed have the row's digest. -/
private theorem columns_hash (sha256 : String → Digest) (c : Contents) :
    c.columns.chainEntryHash zero sha256 = some (c.chainEntryHash sha256) := by
  have read : readDetail zero c.columns.detail = some (c.detail.detail.getD "") := readDetail_json zero c.detail
  rw [columns_chainEntryHash_eq, read, chainEntryHash_eq]
  rfl

end Text

/-- The digest tells contents apart exactly when they are not confused. -/
private theorem tells_apart_iff {sha256 : String → Digest} (inj : Function.Injective sha256) (c c' : Contents) :
    (c ≠ c' → c.chainEntryHash sha256 ≠ c'.chainEntryHash sha256) ↔ ¬ Confused c c' := by
  rw [confused_iff, chainEntryHash_eq, chainEntryHash_eq, not_and', ne_eq, ne_eq, inj.eq_iff]

/-- Columns are confused with a row's when they differ and have its digest. -/
private theorem confusedColumns_iff {F : Type} {zero : F → Bool} {sha256 : String → Digest}
    (inj : Function.Injective sha256) (changed : Columns F) (row : Contents) :
    ConfusedColumns zero changed row ↔
      changed.chainEntryHash zero sha256 = some (row.chainEntryHash sha256) ∧ ¬ changed.Same row.columns := by
  have digest : changed.chainEntryHash zero sha256 = some (row.chainEntryHash sha256) ↔
      ∃ detail, readDetail zero changed.detail = some detail ∧
        canonical (changed.hashed detail) = canonical row.hashed := by
    rw [columns_chainEntryHash_eq, chainEntryHash_eq, Option.map_eq_some_iff]
    simp only [inj.eq_iff]
  rw [digest]
  constructor
  · rintro ⟨prevHash, organizationId, actorType, actorId, createdAt, detail, read, text⟩
    refine ⟨⟨detail, read, (canonical_eq_iff _ _).mpr
      ⟨⟨prevHash, organizationId, actorType, actorId, createdAt⟩, text.imp_left And.left⟩⟩, fun same => ?_⟩
    rcases text with ⟨-, differ | differ⟩ | shifted | shifted
    · exact differ same.prevHash
    · exact differ same.detail
    · exact shifted_action_ne shifted same.action
    · exact shifted_action_ne shifted same.action.symm
  · rintro ⟨⟨detail, read, text⟩, differ⟩
    obtain ⟨⟨prevHash, organizationId, actorType, actorId, createdAt⟩, text⟩ := (canonical_eq_iff _ _).mp text
    refine ⟨prevHash, organizationId, actorType, actorId, createdAt, detail, read, text.imp_left fun parts => ⟨parts, ?_⟩⟩
    obtain ⟨action, result, -⟩ := Parts.mk.inj parts
    rw [← not_and_or]
    exact fun same => differ ⟨organizationId, actorType, actorId, action, result, same.2, same.1, createdAt⟩

private theorem confusedEvents_iff (sha256 : String → Digest) (event event' : AuthAuditEvent) (org org' : OrgId)
    (prevHash prevHash' : Option Digest) (createdAt createdAt' : DateTime) :
    Confused (entry sha256 event org prevHash createdAt).toContents
        (entry sha256 event' org' prevHash' createdAt').toContents ↔
      ConfusedEvents event event' org org' prevHash prevHash' createdAt createdAt' := by
  have detail : (entry sha256 event org prevHash createdAt).detail ≠
      (entry sha256 event' org' prevHash' createdAt').detail ↔
        event.result ≠ event'.result ∨ event.detail ≠ event'.detail := by
    simp only [entry, ne_eq, AuditDetail.mk.injEq, not_and_or]
  constructor
  · rintro ⟨hp, ho, ht, hi, hc, text⟩
    exact ⟨hp, ho, ht, hi, hc, text.imp_left (And.imp_right detail.mp)⟩
  · rintro ⟨hp, ho, ht, hi, hc, text⟩
    exact ⟨hp, ho, ht, hi, hc, text.imp_left (And.imp_right detail.mpr)⟩

/-- The digests of two recorded rows that differ differ, and a stored row whose columns are changed no
longer has the digest of what it holds, exactly when the digest does not confuse the two. -/
theorem entry_hash_tells_apart_iff (sha256 : String → Digest) (inj : Function.Injective sha256)
    {F : Type} (zero : F → Bool) (event : AuthAuditEvent) (org : OrgId) (prevHash : Option Digest)
    (createdAt : DateTime) :
    (∀ event' org' prevHash' createdAt',
      ((entry sha256 event org prevHash createdAt).toContents ≠
            (entry sha256 event' org' prevHash' createdAt').toContents →
          (entry sha256 event org prevHash createdAt).entryHash ≠
            (entry sha256 event' org' prevHash' createdAt').entryHash) ↔
        ¬ ConfusedEvents event event' org org' prevHash prevHash' createdAt createdAt') ∧
    (entry sha256 event org prevHash createdAt).columns.chainEntryHash zero sha256 =
      some (entry sha256 event org prevHash createdAt).entryHash ∧
    ∀ changed : Columns F,
      (¬ changed.Same (entry sha256 event org prevHash createdAt).columns →
          changed.chainEntryHash zero sha256 ≠ some (entry sha256 event org prevHash createdAt).entryHash) ↔
        ¬ ConfusedColumns zero changed (entry sha256 event org prevHash createdAt).toContents := by
  refine ⟨?_, columns_hash zero sha256 _, ?_⟩
  · intro event' org' prevHash' createdAt'
    rw [← confusedEvents_iff sha256]
    exact tells_apart_iff inj _ _
  · intro changed
    rw [confusedColumns_iff inj, not_and']
    rfl

section Sample

/-- A digest without collisions: the code points, in three bytes each. -/
def codePoints (text : String) : Digest where
  bytes := 0 :: text.toList.flatMap fun c =>
    [.ofNat (c.toNat / 65536), .ofNat (c.toNat / 256), .ofNat c.toNat]
  nonempty := List.cons_ne_nil _ _

theorem codePoints_injective : Function.Injective codePoints := by
  intro s t h
  have three : Function.Injective fun c : Char =>
      ([.ofNat (c.toNat / 65536), .ofNat (c.toNat / 256), .ofNat c.toNat] : List UInt8) := by
    intro c d hcd
    simp only [List.cons.injEq, ← UInt8.toNat_inj, UInt8.toNat_ofNat', and_true] at hcd
    have small : ∀ c : Char, c.toNat < 1114112 := by
      intro c
      rcases c.valid with h | h
      · exact lt_trans h (by decide)
      · exact h.2
    have hc := small c
    have hd := small d
    exact Char.toNat_inj.mp (by omega)
  have bytes := List.tail_eq_of_cons_eq (Digest.mk.inj h)
  exact String.toList_injective (flatMap_injective (by decide : 0 < 3) (fun _ => rfl) three bytes)

def noon : DateTime := ⟨2026, 7, 25, 12, 0, 0, 0, by decide, by decide⟩

def expiredEvent : AuthAuditEvent := { action := "request.rejected", result := "expired", organizationId := some 1 }

def revokedEvent : AuthAuditEvent := { action := "request.rejected", result := "revoked", organizationId := some 1 }

/-- The decision is outside the digest: a rejection for an expired credential has that of one for a
revoked credential. -/
theorem decision_outside_digest : ¬ ∀ (sha256 : String → Digest), Function.Injective sha256 →
    ∀ (event event' : AuthAuditEvent) (org org' : OrgId) (prevHash prevHash' : Option Digest)
      (createdAt createdAt' : DateTime),
      (entry sha256 event org prevHash createdAt).toContents ≠
          (entry sha256 event' org' prevHash' createdAt').toContents →
        (entry sha256 event org prevHash createdAt).entryHash ≠
          (entry sha256 event' org' prevHash' createdAt').entryHash := by
  intro claim
  refine claim codePoints codePoints_injective expiredEvent revokedEvent 1 1 none none noon noon ?_ rfl
  intro same
  exact absurd (congrArg (fun c : Contents => c.detail.decision) same) (by decide)

/-- Two rejections whose details differ are told apart, and so is a row whose subject is changed. -/
theorem entry_hash_tells_apart_details :
    (entry codePoints { expiredEvent with detail := some "jwt" } 1 none noon).entryHash ≠
        (entry codePoints { expiredEvent with detail := some "api_key" } 1 none noon).entryHash ∧
      ({ (entry codePoints { expiredEvent with detail := some "jwt" } 1 none noon).columns with
          actorId := some 7 } : Columns Rat).chainEntryHash (fun x => decide (x = 0)) codePoints ≠
        some (entry codePoints { expiredEvent with detail := some "jwt" } 1 none noon).entryHash := by
  obtain ⟨apart, -, changed⟩ := entry_hash_tells_apart_iff codePoints codePoints_injective
    (fun x : Rat => decide (x = 0)) { expiredEvent with detail := some "jwt" } 1 none noon
  constructor
  · refine (apart { expiredEvent with detail := some "api_key" } 1 none noon).mpr ?_ ?_
    · rintro ⟨-, -, -, -, -, ⟨parts, -⟩ | shifted | shifted⟩
      · exact absurd (congrArg Parts.detail parts) (by decide)
      · exact shifted_action_ne shifted rfl
      · exact shifted_action_ne shifted rfl
    · intro same
      exact absurd (congrArg (fun c : Contents => c.detail.detail) same) (by decide)
  · refine (changed _).mpr ?_ ?_
    · exact fun confused => absurd confused.actorId (by decide)
    · exact fun same => absurd same.actorId (by decide)

end Sample

end LlmGateway.Audit
