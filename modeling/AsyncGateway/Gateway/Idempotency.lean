import AsyncGateway.Runtime.Container
import AsyncGateway.Lib.Dumps
import Mathlib.Data.Rat.Floor

/-!
# Gateway — idempotency keys

The key under which a create request is accepted once (`resolveKey`): the caller's own, or one
derived from the credential and the normalised body, and the bucket of the time it comes at
(`windowBucket`).  The hash and the lower case of a string are the libraries' (`Hashing`).
-/

namespace AsyncGateway

/-- The library functions the keys are made with. -/
structure Hashing where
  /-- `hashlib.sha256(text.encode()).hexdigest()`. -/
  sha256 : String → String
  length_sha256 : ∀ text, (sha256 text).length = 64
  /-- `text.lower()`. -/
  lower : String → String

/-! ### The key -/

section Key

variable (H : Hashing)

structure IdempotencyKey where
  key : String
  derived : Bool
  bodyDigest : String

def derivedPrefix : String := "auto:"

/-- `_get_dotted`; `None` where there is nothing. -/
def getDotted (body : Json.Fields) (dotted : String) : Json :=
  ((Json.obj body).follow ((dotted.splitOn ".").map .key)).getD .null

/-- `canonical_body`: the declared fields, normalised, else all the fields of the body. -/
def canonicalBody (body : Json.Fields) (t : ResolvedTemplate) : String :=
  let fields := if t.normalizeFields = [] then body.map Prod.fst else t.normalizeFields
  let ci := t.normalizeCaseInsensitive.map H.lower
  let value := fun field =>
    match getDotted body field with
    | .str s =>
        let s := if t.normalizeTrimStrings then String.ofList (Text.strip s.toList) else s
        Json.str (if field ∈ ci then H.lower s else s)
    | other => other
  Json.dumps (.obj ((fields.insertionSort (· ≤ ·)).foldl
    (fun payload field => Json.put payload field (value field)) []))

def bodyDigest (body : Json.Fields) (t : ResolvedTemplate) : String :=
  H.sha256 (canonicalBody H body t)

def deriveKey (keyHash : String) (body : Json.Fields) (t : ResolvedTemplate) : IdempotencyKey :=
  let digest := bodyDigest H body t
  if t.normalizeFields = [] ∧ body = [] then
    ⟨derivedPrefix ++ keyHash ++ "|empty", true, digest⟩
  else
    ⟨derivedPrefix ++ keyHash ++ "|" ++ String.ofList (digest.toList.take 32), true, digest⟩

/-- `resolve_key`: the caller's own key where there is one. -/
def resolveKey (explicit : Option String) (keyHash : String) (body : Json.Fields)
    (t : ResolvedTemplate) : IdempotencyKey :=
  match nonEmpty explicit with
  | some key => ⟨String.ofList (Text.strip key.toList), false, bodyDigest H body t⟩
  | none => deriveKey H keyHash body t

/-- `window_bucket`. -/
def windowBucket (now : Time) (windowSeconds : ℤ) : ℤ := ⌊now / (max 1 windowSeconds : ℤ)⌋

theorem resolveKey_bodyDigest (explicit : Option String) (keyHash : String) (body : Json.Fields)
    (t : ResolvedTemplate) : (resolveKey H explicit keyHash body t).bodyDigest = bodyDigest H body t := by
  unfold resolveKey
  split
  · rfl
  · unfold deriveKey
    simp only
    split <;> rfl

theorem bodyDigest_ne_empty (body : Json.Fields) (t : ResolvedTemplate) :
    bodyDigest H body t ≠ "" := by
  intro h
  have hl := H.length_sha256 (canonicalBody H body t)
  rw [show H.sha256 (canonicalBody H body t) = "" from h] at hl
  simp at hl

/-- Instants a window apart or more are in different buckets. -/
theorem windowBucket_ne_of_le {w : ℤ} (hw : 1 ≤ w) {t₁ t₂ : Time} (h : (w : ℚ) ≤ t₂ - t₁) :
    windowBucket t₁ w ≠ windowBucket t₂ w := by
  have hpos : (0 : ℚ) < w := by exact_mod_cast hw
  have hstep : t₁ / w + 1 ≤ t₂ / w := by
    rw [← div_self hpos.ne', ← add_div]
    exact div_le_div_of_nonneg_right (by linarith) hpos.le
  simp only [windowBucket, max_eq_right hw]
  refine ne_of_lt (Int.lt_of_add_one_le ?_)
  rw [← Int.floor_add_one]
  exact Int.floor_le_floor hstep

end Key

end AsyncGateway
