import AsyncGateway.Lib.Json
import AsyncGateway.Lib.Pattern
import AsyncGateway.Lib.Text

/-!
# Security — the redaction of what the upstream answers

`scrubText` replaces the known credentials in a text, and then what has the shape of one;
`scrubPayload` does so in every string of a document.  Which characters beyond ASCII count as
letters and digits is the Unicode table's, and a parameter.
-/

namespace AsyncGateway

namespace Redaction

/-- `_REDACTED`. -/
def redacted : List Char := "***redacted***".toList

/-! ### `_SECRET_SHAPES` -/

section Shapes

/-- `[A-Za-z0-9]`. -/
def alnum (c : Char) : Bool :=
  ('A' ≤ c && c ≤ 'Z') || ('a' ≤ c && c ≤ 'z') || ('0' ≤ c && c ≤ '9')

/-- `[A-Za-z0-9]` where the case is ignored: four letters beyond ASCII fold into it. -/
def alnumAnyCase (c : Char) : Bool :=
  alnum c || decide (c.toNat ∈ [0x130, 0x131, 0x17f, 0x212a])

/-- A lower-case letter of ASCII where the case is ignored. -/
def anyCase (letter c : Char) : Bool :=
  c.toLower == letter || (letter == 'i' && decide (c.toNat ∈ [0x130, 0x131])) ||
    (letter == 's' && decide (c.toNat = 0x17f)) || (letter == 'k' && decide (c.toNat = 0x212a))

/-- A word of lower-case letters where the case is ignored. -/
def wordAnyCase (s : String) : Pattern :=
  s.toList.foldr (fun x p => .seq (.char (anyCase x)) p) .empty

/-- `\w`: `unicodeWord` says which characters beyond ASCII it takes. -/
def wordChar (unicodeWord : Char → Bool) (c : Char) : Bool :=
  if c.toNat < 128 then alnum c || c == '_' else unicodeWord c

def sequence (ps : List Pattern) : Pattern := ps.foldr .seq .empty

def oneOf (words : List String) : Pattern :=
  words.foldr (fun s p => .either (wordAnyCase s) p) (.char fun _ => false)

variable (unicodeWord : Char → Bool)

/-- `_SECRET_SHAPES`, in their order. -/
def secretShapes : List Pattern :=
  let boundary := Pattern.boundary (wordChar unicodeWord)
  [sequence [boundary, oneOf ["sk", "pk", "api", "key", "token", "bearer"],
      .char fun c => c == '-' || c == '_',
      .many (fun c => alnumAnyCase c || c == '-' || c == '_') 12 none, boundary],
    sequence [boundary, wordAnyCase "bearer", .many Text.isSpace 1 none,
      .many (fun c => alnumAnyCase c || c ∈ "-._~+/".toList) 16 none, .many (· == '=') 0 none],
    sequence [boundary, .literal "AKIA".toList,
      .many (fun c => ('0' ≤ c && c ≤ '9') || ('A' ≤ c && c ≤ 'Z')) 16 (some 16), boundary],
    sequence [boundary, .many alnum 32 none, .many (· == '=') 0 (some 2), boundary]]

end Shapes

/-! ### `scrub_text` and `scrub_payload` -/

variable (unicodeWord : Char → Bool) (secrets : List String)

/-- The credentials that are long enough to be looked for. -/
def known : List String := secrets.filter fun secret => decide (6 ≤ secret.length)

/-- `scrub_text`: first the known credentials, then the shapes. -/
def scrubText (text : String) : String :=
  let out := Pattern.subAll redacted ((known secrets).map fun secret => .literal secret.toList)
    text.toList
  String.ofList (Pattern.subAll redacted (secretShapes unicodeWord) out)

/-- `scrub_payload`. -/
def scrubPayload (doc : Json) : Json := doc.mapStrings (scrubText unicodeWord secrets)

example : scrubText (fun _ => false) ["Bearer abc"] "got Bearer abc for task-7" =
    "got ***redacted*** for task-7" := by decide

example : scrubText (fun _ => false) [] "0123456789abcdef0123456789abcdef" =
    "***redacted***" := by decide

/-! ### What the redaction leaves -/

/-- The text holds no known credential, and nothing that has the shape of one. -/
structure Clean (text : String) : Prop where
  known : ∀ secret ∈ secrets, 6 ≤ secret.length → ¬ secret.toList <:+: text.toList
  shapes : ∀ shape ∈ secretShapes unicodeWord, shape.occurs text.toList = false

variable {unicodeWord : Char → Bool} {secrets : List String}

/-- **The redaction leaves a text without an asterisk as it is only where it is clean.** -/
theorem scrubText_eq_self_iff {text : String} (h : '*' ∉ text.toList) :
    scrubText unicodeWord secrets text = text ↔ Clean unicodeWord secrets text := by
  have hm : '*' ∈ redacted := by decide
  have happ : scrubText unicodeWord secrets text = String.ofList (Pattern.subAll redacted
      ((known secrets).map (fun secret => .literal secret.toList) ++ secretShapes unicodeWord)
      text.toList) := by
    simp only [scrubText, Pattern.subAll, List.foldl_append]
  -- the passes leave the text only where none of their patterns occurs
  have hself : scrubText unicodeWord secrets text = text ↔
      ∀ p ∈ (known secrets).map (fun secret => .literal secret.toList) ++
        secretShapes unicodeWord, p.occurs text.toList = false := by
    rw [← Pattern.subAll_eq_self_iff hm h, happ]
    constructor
    · intro he
      simpa using congrArg String.toList he
    · intro he
      rw [he, String.ofList_toList]
  have literal_iff : ∀ secret : String, 6 ≤ secret.length →
      ((Pattern.literal secret.toList).occurs text.toList = false ↔
        ¬ secret.toList <:+: text.toList) := fun secret hlen => by
    have hne : secret.toList ≠ [] := by
      intro hn
      rw [← String.length_toList, hn] at hlen
      cases hlen
    rw [← Bool.not_eq_true]
    exact not_congr (Pattern.occursFrom_literal hne)
  rw [hself]
  constructor
  · intro hp
    refine ⟨fun secret hs hlen => (literal_iff secret hlen).mp (hp _ ?_), fun shape hshape =>
      hp _ (List.mem_append_right _ hshape)⟩
    exact List.mem_append_left _
      (List.mem_map_of_mem (List.mem_filter.mpr ⟨hs, decide_eq_true hlen⟩))
  · intro hc p hp
    rcases List.mem_append.mp hp with hp | hp
    · obtain ⟨secret, hs, rfl⟩ := List.mem_map.mp hp
      obtain ⟨hs, hlen⟩ := List.mem_filter.mp hs
      have hlen := of_decide_eq_true hlen
      exact (literal_iff secret hlen).mpr (hc.known secret hs hlen)
    · exact hc.shapes p hp

theorem scrubText_eq_empty {text : String} :
    scrubText unicodeWord secrets text = "" ↔ text = "" := by
  have hm : redacted ≠ [] := by decide
  rw [scrubText, String.ofList_eq_empty_iff, Pattern.subAll_eq_nil hm, Pattern.subAll_eq_nil hm,
    String.toList_eq_nil_iff]

end Redaction

end AsyncGateway
