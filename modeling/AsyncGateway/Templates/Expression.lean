import AsyncGateway.Lib.Json
import AsyncGateway.Lib.Text

/-!
# Templates — the path expressions

The strict subset of JSONPath a template may use: `compileExpression` turns a specification into
the steps of a path or refuses it, `extract` follows a path through a document within the limit on
the size of the result, and `setPathOnDoc` writes at a path of keys.
-/

namespace AsyncGateway

open Json (Step)

/-- Why a specification is refused. -/
inductive ExpressionError : Type where
  | empty
  | forbidden (why : String)
  | noDollar
  | noName (position : ℕ)
  | unclosed (position : ℕ)
  | notAnIndex (position : ℕ)
  /-- The `ValueError` of an `int` of too many digits, which is no `ExpressionError`. -/
  | tooManyDigits
  | illegalChar (c : Char) (position : ℕ)
  | tooManySteps (steps : ℕ)
  deriving DecidableEq

def maxPathSteps : ℕ := 32

def maxResultBytes : ℕ := 65536

def forbiddenTokens : List (String × String) :=
  [("..", "递归下降"), ("*", "通配"), ("[?", "过滤器表达式"), ("[(", "脚本表达式"),
   ("@", "当前节点引用"), ("|", "联合/管道")]

/-- The first character of a name. -/
def nameStart (c : Char) : Bool :=
  ('A' ≤ c && c ≤ 'Z') || ('a' ≤ c && c ≤ 'z') || c == '_'

def nameRest (c : Char) : Bool := nameStart c || ('0' ≤ c && c ≤ '9') || c == '-'

/-- The step between `[` and `]`: a quoted key or an index. -/
def bracketStep (inner : List Char) : Option Step :=
  let inner := Text.strip inner
  let quoted := match inner.head?, inner.getLast? with
    | some q, some q' => decide (2 ≤ inner.length ∧ q = q') && (q == '\'' || q == '"')
    | _, _ => false
  if quoted then some (.key (String.ofList inner.tail.dropLast))
  else (Text.integer? inner).map .index

/-- The steps of what is left of a specification of length `n`.  Every step takes at least one
character, so `n` is fuel enough. -/
def compileSteps (n : ℕ) : ℕ → List Char → Except ExpressionError (List Step)
  | _, [] => .ok []
  | 0, _ => .ok []
  | fuel + 1, '.' :: rest =>
      match rest.takeWhile nameRest with
      | [] => .error (.noName (n - rest.length))
      | c :: name =>
          if nameStart c then do
            let steps ← compileSteps n fuel (rest.dropWhile nameRest)
            .ok (.key (String.ofList (c :: name)) :: steps)
          else .error (.noName (n - rest.length))
  | fuel + 1, '[' :: rest =>
      if ']' ∈ rest then
        match bracketStep (rest.takeWhile (· ≠ ']')) with
        | some step => do
            let steps ← compileSteps n fuel (rest.dropWhile (· ≠ ']')).tail
            .ok (step :: steps)
        | none =>
            if Text.isInteger (Text.strip (rest.takeWhile (· ≠ ']'))) then .error .tooManyDigits
            else .error (.notAnIndex (n - rest.length - 1))
      else .error (.unclosed (n - rest.length - 1))
  | _ + 1, c :: rest => .error (.illegalChar c (n - rest.length - 1))

def compileExpression (spec : String) : Except ExpressionError (List Step) :=
  let cs := spec.toList
  match cs with
  | [] => .error .empty
  | c :: rest =>
      match forbiddenTokens.find? fun t => Text.occursIn t.1.toList cs with
      | some t => .error (.forbidden t.2)
      | none =>
          if c = '$' then do
            let steps ← compileSteps cs.length rest.length rest
            if maxPathSteps < steps.length then .error (.tooManySteps steps.length) else .ok steps
          else .error .noDollar

example : compileExpression "$.data['task id'][-1]" =
    .ok [.key "data", .key "task id", .index (-1)] := by rfl

/-- `extract`, where a path that is not there and a result above the size limit are `none`. -/
def extract (doc : Json) (path : List Step) : Option Json :=
  (doc.follow path).bind fun node =>
    if maxResultBytes < node.dumpsBytes then none else some node

inductive ExtractError : Type where
  | pathNotFound
  | evalBudgetExceeded
  deriving DecidableEq

/-- `extract`, with the exception it raises. -/
def extractExcept (doc : Json) (path : List Step) : Except ExtractError Json :=
  match doc.follow path with
  | none => .error .pathNotFound
  | some node => if maxResultBytes < node.dumpsBytes then .error .evalBudgetExceeded else .ok node

theorem extract_eq_toOption (doc : Json) (path : List Step) :
    extract doc path = (extractExcept doc path).toOption := by
  unfold extract extractExcept
  cases doc.follow path with
  | none => rfl
  | some node =>
      simp only [Option.bind_some]
      split <;> rfl

/-- A path that leads to the same in two documents is extracted from both alike. -/
theorem extractExcept_congr {doc doc' : Json} {path : List Step}
    (h : doc.follow path = doc'.follow path) :
    extractExcept doc path = extractExcept doc' path := by
  rw [extractExcept, extractExcept, h]

/-- `try_extract`: the value found, if any. -/
def tryExtract (doc : Json) (spec : String) : Except ExpressionError (Option Json) := do
  let path ← compileExpression spec
  .ok (extract doc path)

section Extract

variable {spec : String} {path : List Step} {doc v : Json}

theorem tryExtract_eq (h : compileExpression spec = .ok path) (doc : Json) :
    tryExtract doc spec = .ok (extract doc path) := by
  simp [tryExtract, h, bind, Except.bind]

theorem follow_of_extract (h : extract doc path = some v) : doc.follow path = some v := by
  obtain ⟨node, hn, hv⟩ := Option.bind_eq_some_iff.mp h
  split at hv
  · cases hv
  · cases hv
    exact hn

/-- What is found at a specification is found by its path. -/
theorem tryExtract_eq_some (hp : compileExpression spec = .ok path)
    (h : tryExtract doc spec = .ok (some v)) : doc.follow path = some v := by
  rw [tryExtract_eq hp, Except.ok.injEq] at h
  exact follow_of_extract h

end Extract

/-! ### Writing at a path -/

/-- The loop of `set_path_on_doc`, and whether it reached its end.  An index step stops it, after
the objects on the way to it are made. -/
def setSteps (doc : Json.Fields) : List Step → Json → Json.Fields × Bool
  | [], _ => (doc, false)
  | [.key k], value => (Json.put doc k value, true)
  | .index _ :: _, _ => (doc, false)
  | .key k :: s :: path, value =>
      let (child, written) := setSteps (Json.fieldsAt doc k) (s :: path) value
      (Json.put doc k (.obj child), written)

/-- `set_path_on_doc`: the document afterwards.  Every caller takes a write that is skipped as it
is. -/
def setPathOnDoc (doc : Json.Fields) (spec : String) (value : Json) :
    Except ExpressionError Json.Fields := do
  let path ← compileExpression spec
  .ok (setSteps doc path value).1

theorem setPathOnDoc_eq {spec : String} {path : List Step} (h : compileExpression spec = .ok path)
    (doc : Json.Fields) (value : Json) :
    setPathOnDoc doc spec value = .ok (setSteps doc path value).1 := by
  simp [setPathOnDoc, h, bind, Except.bind]

/-- On a path of keys the loop is the library's `write`. -/
theorem setSteps_keys {ks : List String} (h : ks ≠ []) (doc : Json.Fields) (value : Json) :
    setSteps doc (ks.map .key) value = (Json.write doc ks value, true) := by
  induction ks generalizing doc with
  | nil => exact absurd rfl h
  | cons k ks ih =>
      cases ks with
      | nil => rfl
      | cons k' ks =>
          have := ih (List.cons_ne_nil _ _) (Json.fieldsAt doc k)
          simp only [List.map_cons] at this
          simp [setSteps, Json.write, this]

/-- The path written leads to the value written. -/
theorem follow_setSteps_self {ks : List String} (h : ks ≠ []) (doc : Json.Fields) (value : Json) :
    (Json.obj (setSteps doc (ks.map .key) value).1).follow (ks.map .key) = some value := by
  rw [setSteps_keys h, Json.follow_write_self h]

/-- A path of keys apart from the one written leads to what it led to, or still to nothing. -/
theorem follow_setSteps_frame {p : List Step} {ks : List String} {doc : Json.Fields} {value : Json}
    (h : Json.Apart p (ks.map .key)) :
    (Json.obj (setSteps doc p value).1).follow (ks.map .key) =
      (Json.obj doc).follow (ks.map .key) := by
  induction p generalizing ks doc with
  | nil => exact absurd List.nil_prefix h.1
  | cons s p ih =>
      cases ks with
      | nil => exact absurd List.nil_prefix h.2
      | cons k ks =>
          cases s with
          | index i => cases p <;> rfl
          | key j =>
              by_cases hjk : k = j
              · subst hjk
                cases p with
                | nil => exact absurd (by simp) h.1
                | cons s' p =>
                    cases ks with
                    | nil => exact absurd (by simp) h.2
                    | cons k' ks =>
                        have hbelow := @ih (k' :: ks) (Json.fieldsAt doc k) h.cons
                        simp only [List.map_cons, Json.follow_fieldsAt] at hbelow
                        simpa [setSteps] using hbelow
              · cases p <;> simp [setSteps, Json.lookup_put_ne _ _ hjk]

/-- A path of keys apart from the one written still leads to what it led to. -/
theorem follow_setSteps_apart {p : List Step} {ks : List String} {doc : Json.Fields}
    {value v : Json} (h : Json.Apart p (ks.map .key))
    (hv : (Json.obj doc).follow (ks.map .key) = some v) :
    (Json.obj (setSteps doc p value).1).follow (ks.map .key) = some v :=
  (follow_setSteps_frame h).trans hv

section Written

variable {p q : List Step} {doc : Json.Fields} {value v : Json} {s : String}

/-- A path `set_path_on_doc` can write: of keys, and of one at least. -/
def Writable (p : List Step) : Prop := p ≠ [] ∧ p.all Step.isKey = true

instance (p : List Step) : Decidable (Writable p) := inferInstanceAs (Decidable (_ ∧ _))

/-- The place whose content a write at `p` replaces is on the way to `q`, or `q` itself. -/
def Clobbers (p q : List Step) : Prop := p ≠ [] ∧ p.takeWhile Step.isKey <+: q

theorem writable_iff : Writable p ↔ ∃ ks : List String, ks ≠ [] ∧ p = ks.map .key := by
  constructor
  · rintro ⟨hne, hall⟩
    induction p with
    | nil => exact absurd rfl hne
    | cons s p ih =>
        simp only [List.all_cons, Bool.and_eq_true] at hall
        obtain ⟨hs, hp⟩ := hall
        cases s with
        | index i => cases hs
        | key k =>
            by_cases hnil : p = []
            · exact ⟨[k], by simp, by simp [hnil]⟩
            · obtain ⟨ks, -, rfl⟩ := ih hnil hp
              exact ⟨k :: ks, by simp, rfl⟩
  · rintro ⟨ks, hne, rfl⟩
    exact ⟨by simpa using hne, by simp [Step.isKey]⟩

/-- A path of keys leads to what was written there. -/
theorem follow_setSteps_written (h : Writable p) (doc : Json.Fields) (value : Json) :
    (Json.obj (setSteps doc p value).1).follow p = some value := by
  obtain ⟨ks, hne, rfl⟩ := writable_iff.mp h
  exact follow_setSteps_self hne doc value

/-- Below a key, the fields that are written on are those of the object there, if any. -/
theorem follow_fieldsAt {k : String}
    (h : (Json.obj (Json.fieldsAt doc k)).follow q = some (.str s)) :
    (Json.obj doc).follow (.key k :: q) = some (.str s) := by
  unfold Json.fieldsAt at h
  split at h
  · next hk => simpa [hk] using h
  · cases q with
    | nil => simp at h
    | cons step q => cases step <;> simp [Json.follow] at h

/-- A string of the document afterwards was there before, or is in the value that was written. -/
theorem follow_setSteps_str (h : (Json.obj (setSteps doc p value).1).follow q = some (.str s)) :
    (Json.obj doc).follow q = some (.str s) ∨
      Writable p ∧ ∃ q', q = p ++ q' ∧ value.follow q' = some (.str s) := by
  induction p generalizing doc q with
  | nil => exact .inl h
  | cons step p ih =>
      cases step with
      | index i => cases p <;> exact .inl h
      | key k =>
          cases q with
          | nil => simp at h
          | cons step' q =>
              cases step' with
              | index i => simp [Json.follow] at h
              | key j =>
                  by_cases hjk : j = k
                  · subst hjk
                    cases p with
                    | nil =>
                        simp only [setSteps, Json.follow_obj_key, Json.lookup_put_self,
                          Option.bind_some] at h
                        exact .inr ⟨by simp [Writable, Step.isKey], q, rfl, h⟩
                    | cons s' p =>
                        simp only [setSteps, Json.follow_obj_key, Json.lookup_put_self,
                          Option.bind_some] at h
                        rcases ih h with h | ⟨hw, q', rfl, hv⟩
                        · exact .inl (follow_fieldsAt h)
                        · refine .inr ⟨⟨by simp, ?_⟩, q', rfl, hv⟩
                          rw [List.all_cons, hw.2]
                          rfl
                  · left
                    cases p <;>
                      simpa [setSteps, Json.lookup_put_ne _ _ hjk] using h

/-- A string stays where the write does not replace it or something around it. -/
theorem follow_setSteps_spared {w : Json} (hp : (Json.obj doc).follow p = some w)
    (hq : (Json.obj doc).follow q = some (.str s)) (h : ¬ Clobbers p q) :
    (Json.obj (setSteps doc p value).1).follow q = some (.str s) := by
  induction p generalizing doc q with
  | nil => exact hq
  | cons step p ih =>
      obtain _ | ⟨step', q⟩ := q
      · simp at hq
      cases step with
      | index i => simp [Json.follow] at hp
      | key k =>
          cases step' with
          | index i => simp [Json.follow] at hq
          | key j =>
              by_cases hjk : j = k
              · subst hjk
                obtain _ | ⟨s', p⟩ := p
                · exact (h ⟨by simp, by simp [List.takeWhile_cons, Step.isKey]⟩).elim
                obtain ⟨fs, node, hfs, hnode, hrest⟩ := Json.follow_key_eq_some hp
                cases hfs
                cases s' with
                | index i => exact (h ⟨by simp, by simp [List.takeWhile_cons, Step.isKey]⟩).elim
                | key k' =>
                    obtain ⟨gs, -, rfl, -, -⟩ := Json.follow_key_eq_some hrest
                    have hgs : Json.fieldsAt doc j = gs := by simp [Json.fieldsAt, hnode]
                    have hq' : (Json.obj gs).follow q = some (.str s) := by simpa [hnode] using hq
                    have hspared : ¬ Clobbers (.key k' :: p) q := by
                      rintro ⟨-, hpre⟩
                      refine h ⟨by simp, ?_⟩
                      rw [List.takeWhile_cons_of_pos rfl]
                      exact (List.prefix_cons_inj _).mpr hpre
                    have hih := ih (hgs.symm ▸ hrest) (hgs.symm ▸ hq') hspared
                    simpa [setSteps] using hih
              · cases p <;> simpa [setSteps, Json.lookup_put_ne _ _ hjk] using hq

/-- A path with an index is not written, and the list it leads through is lost. -/
theorem follow_setSteps_index (hp : (Json.obj doc).follow p = some v)
    (h : ¬ p.all Step.isKey = true) :
    (Json.obj (setSteps doc p value).1).follow (p.takeWhile Step.isKey) = some (.obj []) := by
  induction p generalizing doc with
  | nil => exact absurd rfl h
  | cons step p ih =>
      cases step with
      | index i => simp [Json.follow] at hp
      | key k =>
          obtain ⟨fs, node, hfs, hnode, hrest⟩ := Json.follow_key_eq_some hp
          cases hfs
          rw [List.takeWhile_cons_of_pos rfl]
          obtain _ | ⟨s', p⟩ := p
          · exact absurd rfl h
          cases s' with
          | index i =>
              obtain ⟨items, rfl⟩ := Json.follow_index_eq_some hrest
              have hgs : Json.fieldsAt doc k = [] := by simp [Json.fieldsAt, hnode]
              cases p <;> simp [setSteps, hgs, Step.isKey]
          | key k' =>
              obtain ⟨gs, -, rfl, -, -⟩ := Json.follow_key_eq_some hrest
              have hgs : Json.fieldsAt doc k = gs := by simp [Json.fieldsAt, hnode]
              have hih := ih (hgs.symm ▸ hrest) (by simpa [Step.isKey] using h)
              simpa [setSteps] using hih

/-- Nothing that was in the list is left. -/
theorem follow_setSteps_lost (hp : (Json.obj doc).follow p = some v)
    (h : ¬ p.all Step.isKey = true) (q : List Step) :
    (Json.obj (setSteps doc p value).1).follow (p.takeWhile Step.isKey ++ q) ≠ some (.str s) := by
  rw [Json.follow_append, follow_setSteps_index hp h, Option.bind_some]
  cases q with
  | nil => simp
  | cons step q => cases step <;> simp [Json.follow]

end Written

end AsyncGateway
