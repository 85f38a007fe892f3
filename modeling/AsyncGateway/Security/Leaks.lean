import AsyncGateway.Security.Redaction

/-!
# Security — the credentials that a scrubbed document still has

`scrubPayload` is there so that no credential is stored or shown (`Scrubbed`).  It goes into every
value of a document and leaves the keys of the objects; and each replacement acts on what the
earlier ones made, so a credential with an edge of the marker, such as one that ends with an
asterisk, may be put together from what it follows and the marker.  A scrubbed document has no
credential just where no key had one and no string is put together so (`scrubbed_iff`).
-/

namespace AsyncGateway

namespace Redaction

variable (unicodeWord : Char → Bool) (secrets : List String)

/-- Everything that is replaced in a text, in its order. -/
def replacements : List Pattern :=
  (known secrets).map (fun secret => .literal secret.toList) ++ secretShapes unicodeWord

theorem toList_scrubText (text : String) : (scrubText unicodeWord secrets text).toList =
    Pattern.subAll redacted (replacements unicodeWord secrets) text.toList := by
  simp only [scrubText, replacements, Pattern.subAll, List.foldl_append, String.toList_ofList]

/-- A credential that is to be gone: long enough to be looked for, and no part of the marker. -/
structure Sought (secret : String) : Prop where
  listed : secret ∈ secrets
  long : 6 ≤ secret.length
  foreign : ¬ secret.toList <:+: redacted

/-- No string of the scrubbed document has a credential in it, be it a key or a value. -/
def Scrubbed (doc : Json) : Prop :=
  ∀ secret, Sought secrets secret →
    ∀ s ∈ (scrubPayload unicodeWord secrets doc).texts ++
      (scrubPayload unicodeWord secrets doc).keys, ¬ secret.toList <:+: s.toList

/-- The replacements, made in the text one after the other, put no credential together that they
then keep; only one with an edge of the marker can be. -/
def Inert (secret text : String) : Prop :=
  Pattern.Edged secret.toList redacted →
    ¬ Pattern.Rejoins secret.toList redacted (replacements unicodeWord secrets) text.toList

variable {unicodeWord secrets}

theorem Sought.ne_nil {secret : String} (h : Sought secrets secret) : secret.toList ≠ [] := by
  intro hn
  have hlong := h.long
  rw [← String.length_toList, hn] at hlong
  cases hlong

theorem Sought.mem_replacements {secret : String} (h : Sought secrets secret) :
    .literal secret.toList ∈ replacements unicodeWord secrets :=
  List.mem_append_left _
    (List.mem_map_of_mem (List.mem_filter.mpr ⟨h.listed, decide_eq_true h.long⟩))

/-- **A text has a credential after the scrubbing just where it was put together.** -/
theorem Sought.inert_iff {secret : String} (h : Sought secrets secret) (text : String) :
    ¬ secret.toList <:+: (scrubText unicodeWord secrets text).toList ↔
      Inert unicodeWord secrets secret text := by
  rw [toList_scrubText, Pattern.infix_subAll_iff_rejoins h.ne_nil h.mem_replacements]
  constructor
  · intro hno _
    exact hno
  · intro hi hr
    exact hi (hr.edged h.ne_nil h.foreign) hr

/-- A credential with no asterisk is in no value of a scrubbed document. -/
theorem Sought.not_infix_of_no_asterisk {secret : String} (h : Sought secrets secret)
    (hstar : '*' ∉ secret.toList) (text : String) :
    ¬ secret.toList <:+: (scrubText unicodeWord secrets text).toList := by
  refine (h.inert_iff text).mpr fun hedge => absurd ?_ hstar
  rcases hedge with ⟨u, w, hs, -, hw, hp⟩ | ⟨u, w, hs, hu, -, hp⟩ | hin
  · obtain ⟨c, w, rfl⟩ := List.exists_cons_of_ne_nil hw
    have hc : c = '*' := by
      obtain ⟨z, hz⟩ := hp
      exact (List.cons.inj hz).1
    rw [hs, hc]
    exact List.mem_append_right _ List.mem_cons_self
  · have hlast : u.getLast hu = '*' := by
      obtain ⟨z, hz⟩ := hp
      have hl : (z ++ u).getLast? = redacted.getLast? := congrArg List.getLast? hz
      rw [List.getLast?_append_of_ne_nil _ hu, List.getLast?_eq_getLast_of_ne_nil hu] at hl
      exact Option.some.inj hl
    rw [hs, ← hlast]
    exact List.mem_append_left _ (List.getLast_mem hu)
  · exact hin.subset (by decide : '*' ∈ redacted)

/-- **A scrubbed document has no credential just where no key of it had one, and in no string one
was put together.** -/
theorem scrubbed_iff (unicodeWord : Char → Bool) (secrets : List String) (doc : Json) :
    Scrubbed unicodeWord secrets doc ↔
      ∀ secret, Sought secrets secret →
        (∀ key ∈ doc.keys, ¬ secret.toList <:+: key.toList) ∧
          ∀ text ∈ doc.texts, Inert unicodeWord secrets secret text := by
  refine forall_congr' fun secret => forall_congr' fun h => ?_
  rw [scrubPayload, Json.texts_mapStrings, Json.keys_mapStrings, List.forall_mem_append,
    List.forall_mem_map, and_comm]
  refine and_congr_right fun _ => forall_congr' fun text => forall_congr' fun _ => ?_
  exact h.inert_iff text

/-- The key of an object is left as it is. -/
theorem scrubbed_fails :
    ¬ Scrubbed (fun _ => false) ["sk-live-abcdef"] (.obj [("sk-live-abcdef", .int 1)]) := by
  intro h
  refine h "sk-live-abcdef" ⟨List.mem_singleton_self _, by decide, by decide⟩ "sk-live-abcdef" ?_
    List.infix_rfl
  exact List.mem_singleton_self _

/-- The marker puts together what it was to take out. -/
example : scrubText (fun _ => false) ["abc***"] "abcabc***" = "abc***redacted***" := by decide

end Redaction

end AsyncGateway
