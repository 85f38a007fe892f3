import AsyncGateway.Db.Audit
import Mathlib.Data.List.Perm.Subperm

/-!
# Db — what the audit chain shows

A change of the audit table is seen where `verify_chain` no longer verifies.  Removing or reordering
rows is seen unless only the last rows are gone.  An alteration is seen unless it leaves what the
hashes are made of, or is of the last row, whose hash nothing but the row itself repeats
(`verifyChain_tampered`).
-/

namespace AsyncGateway

open Interleave (HashChain)

/-- The records of a table by the ids of their rows. -/
def records (table : List AuditRow) : List AuditRecord := (byId table).map (·.toAuditRecord)

/-- A change of the table other than appending, by the records of the rows. -/
inductive Tampering : List AuditRecord → List AuditRecord → Prop
  /-- A row is altered, and rows after it perhaps, but no hash after it. -/
  | alter (before : List AuditRecord) {r r' : AuditRecord} {after after' : List AuditRecord}
      (hne : r' ≠ r) (hhash : after'.map (·.hash) = after.map (·.hash)) :
      Tampering (before ++ r :: after) (before ++ r' :: after')
  /-- Rows are removed or reordered, and not the last ones removed alone. -/
  | move {rs rs' : List AuditRecord} (hsub : rs'.Subperm rs) (hne : ¬ rs' <+: rs) : Tampering rs rs'

/-- Both records have the same links and the same hashed text. -/
structure SameText (r r' : AuditRecord) : Prop where
  prevHash_eq : r'.prevHash = r.prevHash
  hash_eq : r'.hash = r.hash
  material_eq : r'.materialAfter r.prevHash = r.materialAfter r.prevHash

section Chain

variable {H : HexHash}

/-- A change that leaves all the links and all the hashed texts, or that is of the last row alone
and comes with the hash of the altered row. -/
inductive Unseen (H : HexHash) : List AuditRecord → List AuditRecord → Prop
  | text {rs rs' : List AuditRecord} (h : List.Forall₂ SameText rs rs') : Unseen H rs rs'
  | last (before : List AuditRecord) {r r' : AuditRecord} (hprev : r'.prevHash = r.prevHash)
      (hhash : r'.hash = r'.expected H.hexdigest r'.prevHash) :
      Unseen H (before ++ [r]) (before ++ [r'])

theorem same_iff_sameText {r r' : AuditRecord} : H.chain.Same r r' ↔ SameText r r' := by
  constructor
  · intro h
    exact ⟨h.link_eq, h.own_eq, H.injective h.digest_eq⟩
  · intro h
    exact ⟨h.prevHash_eq, h.hash_eq, congrArg H.hexdigest h.material_eq⟩

theorem forall₂_sameText_refl (rs : List AuditRecord) : List.Forall₂ SameText rs rs := by
  induction rs with
  | nil => exact .nil
  | cons r rs ih => exact .cons ⟨rfl, rfl, rfl⟩ ih

/-- An unseen change leaves a chain. -/
theorem Unseen.chained {rs rs' : List AuditRecord} (h : Unseen H rs rs')
    (hc : H.chain.Chained none rs) : H.chain.Chained none rs' := by
  cases h with
  | text h => exact hc.of_same (h.imp fun _ _ => same_iff_sameText.mpr)
  | last before hprev hhash =>
      obtain ⟨hb, hl, -⟩ := HashChain.chained_append.mp hc
      have hp : _ = H.chain.ending none before := hprev.trans hl
      exact HashChain.chained_append.mpr ⟨hb, hp, hp ▸ hhash, trivial⟩

/-- An alteration that leaves a chain is unseen. -/
theorem unseen_of_alter {before after after' : List AuditRecord} {r r' : AuditRecord}
    (hhash : after'.map (·.hash) = after.map (·.hash))
    (hc : H.chain.Chained none (before ++ r :: after))
    (hc' : H.chain.Chained none (before ++ r' :: after')) :
    Unseen H (before ++ r :: after) (before ++ r' :: after') := by
  have hK := auditChain_lawful H
  obtain ⟨hb, hr⟩ := HashChain.chained_append.mp hc
  obtain ⟨-, hr'⟩ := HashChain.chained_append.mp hc'
  have hash_own : ∀ {p : Option String} {r : AuditRecord}, r.hash = r.expected H.hexdigest p →
      ∀ x ∈ some r.hash, x ∈ Set.range H.hexdigest := by
    intro p r h x hx
    cases hx
    exact ⟨r.materialAfter p, h.symm⟩
  cases after with
  | nil =>
      obtain rfl : after' = [] := by simpa using hhash
      have hlink : r'.prevHash = H.chain.ending none before := hr'.1
      exact .last before (hlink.trans hr.1.symm) (hlink ▸ hr'.2.1)
  | cons s after =>
      -- the next row repeats the hash of the altered one
      have hown : r'.hash = r.hash := Option.some.inj
        ((HashChain.Chained.same hK (hash_own hr.2.1) (hash_own hr'.2.1) hr.2.2 hr'.2.2 hhash).1
          (List.cons_ne_nil _ _))
      have hends := hb.hash_ending hK
      have hsame :=
        (HashChain.Chained.same hK hends hends hr hr' (congrArg₂ List.cons hown hhash)).2
      exact .text (List.rel_append (forall₂_sameText_refl before)
        (hsame.imp fun _ _ => same_iff_sameText.mp))

end Chain

/-- What `verify_chain` says of a whole table. -/
theorem verifyChain_iff_chained {H : HexHash} {limit : ℕ} {table : List AuditRow}
    (hl : table.length ≤ limit) :
    (verifyChain H.hexdigest limit table).1 = true ↔ H.chain.Chained none (records table) := by
  have hlen : (byId table).length ≤ limit := by simpa [byId] using hl
  rw [verifyChain, verifyRows_fst, verifyRows_eq_true, List.take_of_length_le hlen]
  rfl

/-- **What tampering with a table that verifies is seen.** -/
theorem verifyChain_tampered (H : HexHash) {limit : ℕ} {table table' : List AuditRow}
    (hv : verifyChain H.hexdigest limit table = (true, none)) (hl : table.length ≤ limit)
    (hl' : table'.length ≤ limit) (ht : Tampering (records table) (records table')) :
    (verifyChain H.hexdigest limit table').1 = false ↔
      ¬ Unseen H (records table) (records table') := by
  have hc : H.chain.Chained none (records table) :=
    (verifyChain_iff_chained hl).mp (congrArg Prod.fst hv)
  rw [← Bool.not_eq_true, verifyChain_iff_chained hl', not_iff_not]
  refine ⟨fun hc' => ?_, fun h => h.chained hc⟩
  generalize records table = rs, records table' = rs' at ht hc hc'
  cases ht with
  | alter before hne hhash => exact unseen_of_alter hhash hc hc'
  | move hsub hne =>
      exact absurd (hc.isPrefix (auditChain_lawful H) hc' fun r hr => hsub.subset hr) hne

/-! ### A hash without collisions -/

/-- A character as as many digits `a` as its number says, and a `b`. -/
def unary (c : Char) : List Char := List.replicate c.toNat 'a' ++ ['b']

theorem unary_append_inj {m n : ℕ} {xs ys : List Char}
    (h : List.replicate m 'a' ++ 'b' :: xs = List.replicate n 'a' ++ 'b' :: ys) :
    m = n ∧ xs = ys := by
  induction m generalizing n with
  | zero =>
      cases n with
      | zero => simpa using h
      | succ n => simp [List.replicate_succ] at h
  | succ m ih =>
      cases n with
      | zero => simp [List.replicate_succ] at h
      | succ n =>
          simp only [List.replicate_succ, List.cons_append, List.cons.injEq, true_and] at h
          exact (ih h).imp_left (congrArg (· + 1))

theorem flatMap_unary_injective {xs ys : List Char} (h : xs.flatMap unary = ys.flatMap unary) :
    xs = ys := by
  induction xs generalizing ys with
  | nil =>
      cases ys with
      | nil => rfl
      | cons y ys => simp [unary] at h
  | cons x xs ih =>
      cases ys with
      | nil => simp [unary] at h
      | cons y ys =>
          simp only [List.flatMap_cons, unary, List.append_assoc, List.cons_append,
            List.nil_append] at h
          obtain ⟨hxy, hrest⟩ := unary_append_inj h
          rw [Char.toNat_inj.mp hxy, ih hrest]

def unaryHash : HexHash where
  hexdigest s := String.ofList ('b' :: s.toList.flatMap unary)
  injective s t h := by
    have h' := String.ofList_injective h
    exact String.toList_injective (flatMap_unary_injective (List.cons.inj h').2)
  hex s c hc := by
    simp only [String.toList_ofList, List.mem_cons, List.mem_flatMap, unary, List.mem_append,
      List.mem_replicate, List.not_mem_nil, or_false] at hc
    rcases hc with rfl | ⟨_, _, ⟨-, rfl⟩ | rfl⟩ <;> decide
  ne_empty s h := by simpa using congrArg String.toList h

/-! ### Two rows -/

/-- The record as `append` stores it after the hash `p`. -/
def AuditRecord.chainedAfter (sha256 : String → String) (p : Option String) (r : AuditRecord) :
    AuditRecord :=
  { r with prevHash := p, hash := r.expected sha256 p }

/-- A record of an accepted task. -/
def acceptedRecord (subjectId : String) : AuditRecord where
  eventType := "task.accepted"
  actor := "caller"
  actorRole := none
  subjectType := some "task"
  subjectId := some subjectId
  payloadDigest := none
  refs := none
  detail := some "task accepted"
  prevHash := none
  hash := ""
  createdAt := ⟨2025, 1, 1, 0, 0, 0, 0⟩

/-- Two records, one after the other. -/
def twoRows (sha256 : String → String) : List AuditRow :=
  let first := (acceptedRecord "t1").chainedAfter sha256 none
  [⟨first, 1⟩, ⟨(acceptedRecord "t2").chainedAfter sha256 (some first.hash), 2⟩]

theorem verifyChain_twoRows (sha256 : String → String) :
    verifyChain sha256 2 (twoRows sha256) = (true, none) :=
  verifyChain_eq_true.mpr ⟨rfl, rfl, rfl, rfl, trivial⟩

/-- The two records with another role, and another detail, of the first actor. -/
def promotedRows (sha256 : String → String) : List AuditRow :=
  match twoRows sha256 with
  | row :: rows => { row with actorRole := some "approver", detail := none } :: rows
  | [] => []

/-- A removed first row is seen. -/
theorem removed_row_is_seen :
    verifyChain unaryHash.hexdigest 2 (twoRows unaryHash.hexdigest) = (true, none) ∧
      ((verifyChain unaryHash.hexdigest 2 ((twoRows unaryHash.hexdigest).drop 1)).1 = false ↔
        ¬ Unseen unaryHash (records (twoRows unaryHash.hexdigest))
          (records ((twoRows unaryHash.hexdigest).drop 1))) := by
  have hv := verifyChain_twoRows unaryHash.hexdigest
  refine ⟨hv, verifyChain_tampered unaryHash hv le_rfl (by decide) (.move ?_ ?_)⟩
  · exact (List.drop_sublist 1 (records (twoRows unaryHash.hexdigest))).subperm
  · rintro ⟨rest, h⟩
    have hsubject : some "t2" = some "t1" :=
      congrArg (fun rs : List AuditRecord => rs.head?.bind AuditRecord.subjectId) h
    simp at hsubject

/-- **An altered role and detail are not seen.** -/
theorem altered_role_is_not_seen :
    ¬ ∀ (H : HexHash) (limit : ℕ) (table table' : List AuditRow),
      verifyChain H.hexdigest limit table = (true, none) → table.length ≤ limit →
      table'.length ≤ limit → Tampering (records table) (records table') →
      (verifyChain H.hexdigest limit table').1 = false := by
  intro h
  have hv := verifyChain_twoRows unaryHash.hexdigest
  have hseen := h unaryHash 2 _ (promotedRows unaryHash.hexdigest) hv le_rfl le_rfl
    (.alter [] (fun he => by cases congrArg AuditRecord.actorRole he) rfl)
  have hkept :
      verifyChain unaryHash.hexdigest 2 (promotedRows unaryHash.hexdigest) = (true, none) :=
    verifyChain_eq_true.mpr ⟨rfl, rfl, rfl, rfl, trivial⟩
  rw [hkept] at hseen
  cases hseen

end AsyncGateway
