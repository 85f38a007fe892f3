import AsyncGateway.Gateway.Idempotency
import AsyncGateway.Lib.HashChain
import AsyncGateway.Lib.Prog
import Mathlib.Data.List.Sort

/-!
# Db — the audit chain

`audit_event` is written by `AuditWriter.append` alone: the row with the greatest id is read, the
new row takes its hash as `prev_hash`, and its own hash is that of a text made of the previous hash
and of some of its fields (`material`).  `verifyChain` walks the rows by their ids.

On what it reads of the rows it is the check of a chain (`auditChain`, `verifyChain_eq_true`), from
which the previous hash can be read back where the hash is injective and in hexadecimal
(`auditChain_lawful`).
-/

/-! ### `json.dumps(.., sort_keys=True, ensure_ascii=False)` -/

namespace Json

mutual

def spacedChars : Json → List Char
  | .arr items => '[' :: [',', ' '].intercalate (spacedItems items) ++ [']']
  | .obj fields =>
      '{' :: [',', ' '].intercalate
        ((sortFields (spacedFields fields)).map fun kv => quote kv.1 ++ ':' :: ' ' :: kv.2) ++ ['}']
  | doc => dumpsChars doc

def spacedItems : List Json → List (List Char)
  | [] => []
  | x :: xs => spacedChars x :: spacedItems xs

def spacedFields : List (String × Json) → List (String × List Char)
  | [] => []
  | (k, v) :: fs => (k, spacedChars v) :: spacedFields fs

end

end Json

namespace AsyncGateway

open Interleave (Sig Prog HashChain)

/-! ### Rows -/

/-- An instant as the column gives it back, in UTC. -/
structure Datetime where
  year : ℕ
  month : ℕ
  day : ℕ
  hour : ℕ
  minute : ℕ
  second : ℕ
  microsecond : ℕ
  deriving DecidableEq

/-- A number in at least `width` digits. -/
def padded (width n : ℕ) : String :=
  let digits := (toString n).toList
  String.ofList (List.replicate (width - digits.length) '0' ++ digits)

/-- `_canonical_timestamp`. -/
def canonicalTimestamp (t : Datetime) : String :=
  padded 4 t.year ++ "-" ++ padded 2 t.month ++ "-" ++ padded 2 t.day ++ "T" ++
    padded 2 t.hour ++ ":" ++ padded 2 t.minute ++ ":" ++ padded 2 t.second ++ "." ++
    padded 6 t.microsecond

/-- What a row of the audit table says. -/
structure AuditRecord where
  eventType : String
  actor : String
  actorRole : Option String
  subjectType : Option String
  subjectId : Option String
  payloadDigest : Option String
  refs : Option Json.Fields
  detail : Option String
  prevHash : Option String
  hash : String
  createdAt : Datetime

/-- A row of `audit_event`. -/
structure AuditRow extends AuditRecord where
  id : ℕ

/-! ### The hash of a row -/

section Hash

variable (sha256 : String → String)

/-- `_digest`. -/
def digestOf (payload : Json) : String := sha256 (String.ofList (Json.spacedChars payload))

/-- The text that is hashed. -/
def material (eventType actor : String) (subjectId payloadDigest prevHash : Option String)
    (createdAt : Datetime) : String :=
  "|".intercalate
    [(nonEmpty prevHash).getD "genesis", eventType, actor, (nonEmpty subjectId).getD "-",
      (nonEmpty payloadDigest).getD "-", canonicalTimestamp createdAt]

/-- `compute_hash`. -/
def computeHash (eventType actor : String) (subjectId payloadDigest prevHash : Option String)
    (createdAt : Datetime) : String :=
  sha256 (material eventType actor subjectId payloadDigest prevHash createdAt)

/-- The text hashed for a record that follows `prevHash`. -/
def AuditRecord.materialAfter (r : AuditRecord) (prevHash : Option String) : String :=
  material r.eventType r.actor r.subjectId r.payloadDigest prevHash r.createdAt

/-- The hash `verify_chain` expects of a record that follows `prevHash`. -/
def AuditRecord.expected (prevHash : Option String) (r : AuditRecord) : String :=
  computeHash sha256 r.eventType r.actor r.subjectId r.payloadDigest prevHash r.createdAt

/-! ### `verify_chain` -/

/-- The loop of `verify_chain`, from the hash of the row before. -/
def verifyRows (prevHash : Option String) : List AuditRow → Bool × Option String
  | [] => (true, none)
  | row :: rows =>
      if row.prevHash ≠ prevHash then
        (false, some ("audit chain broken at id=" ++ toString row.id ++ " (prev_hash mismatch)"))
      else if row.hash ≠ row.expected sha256 prevHash then
        (false, some ("audit chain broken at id=" ++ toString row.id ++ " (hash mismatch)"))
      else verifyRows (some row.hash) rows

/-- The rows by their ids. -/
def byId (table : List AuditRow) : List AuditRow :=
  table.insertionSort fun a b => a.id ≤ b.id

/-- `verify_chain`. -/
def verifyChain (limit : ℕ) (table : List AuditRow) : Bool × Option String :=
  verifyRows sha256 none ((byId table).take limit)

/-- The audit table as a chain of hashes. -/
def auditChain : HashChain AuditRecord String where
  link := AuditRecord.prevHash
  own := AuditRecord.hash
  digest p r := r.expected sha256 p

variable {sha256}

theorem verifyRows_eq_true {p : Option String} {rows : List AuditRow} :
    verifyRows sha256 p rows = (true, none) ↔
      (auditChain sha256).Chained p (rows.map (·.toAuditRecord)) := by
  induction rows generalizing p with
  | nil => exact iff_of_true rfl trivial
  | cons row rows ih =>
      simp only [verifyRows, List.map_cons, HashChain.chained_cons, ne_eq, ite_not,
        auditChain] at ih ⊢
      by_cases hp : row.prevHash = p
      · by_cases hh : row.hash = row.expected sha256 p <;> simp [hp, hh, ih]
      · simp [hp]

/-- Whether the chain verifies, and the answer as a whole. -/
theorem verifyRows_fst {p : Option String} {rows : List AuditRow} :
    (verifyRows sha256 p rows).1 = true ↔ verifyRows sha256 p rows = (true, none) := by
  induction rows generalizing p with
  | nil => simp [verifyRows]
  | cons row rows ih =>
      unfold verifyRows
      split
      · simp
      · split
        · simp
        · exact ih

theorem verifyChain_eq_true {limit : ℕ} {table : List AuditRow} :
    verifyChain sha256 limit table = (true, none) ↔
      (auditChain sha256).Chained none (((byId table).take limit).map (·.toAuditRecord)) :=
  verifyRows_eq_true

end Hash

/-! ### A hash without collisions -/

/-- A hash without collisions, written in hexadecimal. -/
structure HexHash where
  hexdigest : String → String
  injective : Function.Injective hexdigest
  hex : ∀ s, ∀ c ∈ (hexdigest s).toList, c ∈ "0123456789abcdef".toList
  ne_empty : ∀ s, hexdigest s ≠ ""

namespace HexHash

variable (H : HexHash)

theorem not_bar (s : String) : '|' ∉ (H.hexdigest s).toList := fun h =>
  absurd (H.hex s _ h) (by decide)

theorem ne_genesis (s : String) : H.hexdigest s ≠ "genesis" := fun h =>
  absurd (H.hex s 'g' (h ▸ by decide)) (by decide)

end HexHash

/-- The text hashed starts with the previous hash, up to the first bar. -/
theorem toList_materialAfter (r : AuditRecord) (p : Option String) :
    ∃ rest, (r.materialAfter p).toList = ((nonEmpty p).getD "genesis").toList ++ '|' :: rest := by
  refine ⟨("|".intercalate [r.eventType, r.actor, (nonEmpty r.subjectId).getD "-",
    (nonEmpty r.payloadDigest).getD "-", canonicalTimestamp r.createdAt]).toList, ?_⟩
  simp only [AuditRecord.materialAfter, material, String.toList_intercalate, List.map_cons,
    List.intercalate_cons_cons]
  rw [List.append_assoc]
  rfl

/-- What stands for the previous hash in the text. -/
def previous (p : Option String) : String := (nonEmpty p).getD "genesis"

section Previous

variable {H : HexHash} {p p' : Option String}

theorem previous_of_hash (h : ∀ x ∈ p, x ∈ Set.range H.hexdigest) :
    p = none ∧ previous p = "genesis" ∨
      ∃ s, p = some (H.hexdigest s) ∧ previous p = H.hexdigest s := by
  cases p with
  | none => exact .inl ⟨rfl, rfl⟩
  | some x =>
      obtain ⟨s, rfl⟩ := h x rfl
      exact .inr ⟨s, rfl, by simp [previous, nonEmpty, Option.filter, H.ne_empty]⟩

theorem bar_not_mem_previous (h : ∀ x ∈ p, x ∈ Set.range H.hexdigest) :
    '|' ∉ (previous p).toList := by
  rcases previous_of_hash h with ⟨-, hp⟩ | ⟨s, -, hp⟩
  · rw [hp]
    decide
  · rw [hp]
    exact H.not_bar s

theorem previous_inj (h : ∀ x ∈ p, x ∈ Set.range H.hexdigest)
    (h' : ∀ x ∈ p', x ∈ Set.range H.hexdigest) (he : previous p = previous p') : p = p' := by
  rcases previous_of_hash h with ⟨hn, hp⟩ | ⟨s, hs, hp⟩
  · rcases previous_of_hash h' with ⟨hn', -⟩ | ⟨s', -, hp'⟩
    · rw [hn, hn']
    · exact absurd (hp'.symm.trans (he.symm.trans hp)) (H.ne_genesis s')
  · rcases previous_of_hash h' with ⟨-, hp'⟩ | ⟨s', hs', hp'⟩
    · exact absurd (hp.symm.trans (he.trans hp')) (H.ne_genesis s)
    · rw [hs, hs', hp.symm.trans (he.trans hp')]

theorem previous_eq_of_material {r r' : AuditRecord} (h : ∀ x ∈ p, x ∈ Set.range H.hexdigest)
    (h' : ∀ x ∈ p', x ∈ Set.range H.hexdigest) (he : r.materialAfter p = r'.materialAfter p') :
    p = p' := by
  obtain ⟨rest, hr⟩ := toList_materialAfter r p
  obtain ⟨rest', hr'⟩ := toList_materialAfter r' p'
  refine previous_inj h h' (String.toList_injective ?_)
  exact (Text.cut_first_inj (bar_not_mem_previous h) (bar_not_mem_previous h')
    (hr.symm.trans ((congrArg String.toList he).trans hr'))).1

end Previous

abbrev HexHash.chain (H : HexHash) : HashChain AuditRecord String := auditChain H.hexdigest

theorem auditChain_lawful (H : HexHash) : H.chain.Lawful (· ∈ Set.range H.hexdigest) where
  hash_digest p r := ⟨r.materialAfter p, rfl⟩
  prev_eq h h' he := previous_eq_of_material h h' (H.injective he)

end AsyncGateway
