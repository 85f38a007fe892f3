import AsyncGateway.Db.Columns

/-!
# Db — the attributes of a task

The attributes are one JSON column that several operations share, each for keys of its own
(`DaoOp.names`).  `note_attribute` writes what it read with its keys put in; the others replace the
whole object (`DaoOp.replaced`).  A write that hits leaves the keys it does not name exactly where
the row has under them what it carries over (`DaoOp.attribute_frame_iff`).
-/

namespace AsyncGateway

open TaskStatus

variable {now : Time} {row row' : AsyncTask}

/-- The value under a key of the attributes. -/
def AsyncTask.attribute (row : AsyncTask) (key : String) : Option Json :=
  (row.attributes.getD []).lookup key

/-! ### What assignments leave in the column -/

/-- The value an assignment gives the attributes. -/
def Assign.attributes? : Assign → Option (Option Json.Fields)
  | .attributes v => some v
  | _ => none

/-- The value a list of assignments leaves in the attributes: the last one. -/
def attributesOf : List Assign → Option (Option Json.Fields)
  | [] => none
  | a :: values => (attributesOf values).or a.attributes?

theorem attributesOf_append (values values' : List Assign) :
    attributesOf (values ++ values') = (attributesOf values').or (attributesOf values) := by
  induction values with
  | nil => simp [attributesOf]
  | cons a values ih => rw [List.cons_append, attributesOf, ih, attributesOf, Option.or_assoc]

theorem attributesOf_ifSome {α : Type} (x : Option α) (f : α → List Assign) :
    attributesOf (ifSome x f) = x.bind fun y => attributesOf (f y) := by
  cases x <;> rfl

theorem attributesOf_setDefault {values : List Assign} {is : Assign → Bool} {a : Assign}
    (h : a.attributes? = none) : attributesOf (setDefault values is a) = attributesOf values := by
  unfold setDefault
  split
  · rfl
  · rw [attributesOf_append, attributesOf, attributesOf, h, Option.or_none, Option.none_or]

/-- `advance` adds no attributes of its own. -/
theorem attributesOf_advanceValues (dst : TaskStatus) (values : List Assign) :
    attributesOf (advanceValues now dst values) = attributesOf values := by
  have finished : ∀ (vs : List Assign) (c : Prop) [Decidable c],
      attributesOf (if c then setDefault vs Assign.isFinishedAt (.finishedAt (some now)) else vs) =
        attributesOf vs := by
    intro vs c _
    split
    · exact attributesOf_setDefault rfl
    · rfl
  have polled : ∀ (vs : List Assign) (c d : Prop) [Decidable c] [Decidable d],
      attributesOf (if c then
        if d then setDefault vs Assign.isNextPollAt (.nextPollAt none) else vs else vs) =
        attributesOf vs := by
    intro vs c d _ _
    split
    · split
      · exact attributesOf_setDefault rfl
      · rfl
    · rfl
  exact (polled _ _ _).trans ((finished _ _).trans (finished _ _))

theorem assign_attributes (values : List Assign) :
    (assign row values).attributes = (attributesOf values).getD row.attributes := by
  induction values generalizing row with
  | nil => rfl
  | cons a values ih =>
      rw [assign_cons, ih, attributesOf]
      cases attributesOf values with
      | some v => rfl
      | none => cases a <;> rfl

/-! ### What an operation does to the column -/

namespace DaoOp

/-- What an operation replaces the attributes by, where it does. -/
def replaced : DaoOp → Option (Option Json.Fields)
  | .advance _ _ values => attributesOf values
  | .relocateCompensate _ _ _ _ _ note =>
      (nonEmpty note).map fun n => some [("compensate_note", .str n)]
  | .releaseSubmitIntent _ _ _ _ _ _ attributes _ => (attributes.filter (· ≠ [])).map some
  | .scheduleTransferRetry _ attempts => some (some [("transfer_attempts", .int attempts)])
  | _ => none

/-- Whether an operation writes a key of the attributes. -/
def names (key : String) : DaoOp → Bool
  | .noteAttribute _ attributes => (attributes.lookup key).isSome
  | op => op.replaced.any fun v => ((v.getD []).lookup key).isSome

/-- What an operation leaves in the attributes, where it writes them. -/
def leaves : DaoOp → Option (Option Json.Fields)
  | .noteAttribute read attributes => some (some (Json.update (read.getD []) attributes))
  | op => op.replaced

theorem attributesOf_assigned (now : Time) (op : DaoOp) : attributesOf (op.assigned now) = op.leaves := by
  cases op with
  | advance dst expected values => exact attributesOf_advanceValues dst values
  | enterUnknown code message expected =>
      rw [assigned, attributesOf_advanceValues]
      rfl
  | relocateCompensate upstreamTaskId target rawStatus snapshot next note =>
      change _ = (nonEmpty note).map fun n => some [("compensate_note", Json.str n)]
      rw [assigned, attributesOf_advanceValues]
      simp only [relocateValues, attributesOf_append, attributesOf_ifSome]
      generalize nonEmpty note = given
      cases given <;> cases nonEmpty upstreamTaskId <;> cases rawStatus <;> cases snapshot <;>
        cases next <;> split <;> rfl
  | releaseSubmitIntent expected next decrement code message retryable attributes deadline =>
      change _ = (attributes.filter (· ≠ [])).map some
      simp only [assigned, releaseValues, attributesOf_append, attributesOf_ifSome]
      generalize attributes.filter (· ≠ []) = given
      cases given <;> cases deadline <;> cases decrement <;> rfl
  | recordPollResult snapshot rawStatus next expected => cases next <;> rfl
  | markFailure expected code message retryable next snapshot => cases snapshot <;> rfl
  | _ => rfl

/-- The attributes after a write that hit. -/
theorem attributes_run {op : DaoOp} (h : op.run now row = .ok (some row')) :
    row'.attributes = op.leaves.getD row.attributes := by
  obtain ⟨s, ref, rfl⟩ := assigned_run h
  rw [← attributesOf_assigned now]
  exact assign_attributes (op.assigned now)

/-- What an operation carries over of the keys it does not name: `note_attribute` what it read, the
others nothing. -/
def carried : DaoOp → Option Json.Fields
  | .noteAttribute read _ => read
  | _ => none

/-- Where the operation writes the attributes, the row has under the other keys what it carries
over. -/
def Spares (row : AsyncTask) (op : DaoOp) : Prop :=
  op.leaves ≠ none →
    ∀ key, op.names key = false → row.attribute key = (op.carried.getD []).lookup key

theorem lookup_leaves {key : String} {op : DaoOp} {v : Option Json.Fields}
    (h : op.leaves = some v) (hk : op.names key = false) :
    (v.getD []).lookup key = (op.carried.getD []).lookup key := by
  cases op with
  | noteAttribute read attributes =>
      cases h
      exact Json.lookup_update (Option.isNone_iff_eq_none.mp (by simpa [names] using hk))
  | _ =>
      have hk' : (some v).any (fun v => ((v.getD []).lookup key).isSome) = false := by
        rw [← h]
        exact hk
      exact Option.isNone_iff_eq_none.mp (by simpa using hk')

/-- **The keys an operation does not name keep their values exactly where it spares the row.** -/
theorem attribute_frame_iff {op : DaoOp} (h : op.run now row = .ok (some row')) :
    (∀ key, op.names key = false → row'.attribute key = row.attribute key) ↔ op.Spares row := by
  have hrun := attributes_run h
  cases hv : op.leaves with
  | none =>
      rw [hv] at hrun
      refine ⟨fun _ hw => absurd hv hw, fun _ key _ => ?_⟩
      exact congrArg (fun v => (v.getD []).lookup key) hrun
  | some v =>
      have after : ∀ key, op.names key = false →
          row'.attribute key = (op.carried.getD []).lookup key := by
        intro key hk
        rw [AsyncTask.attribute, hrun, hv]
        exact lookup_leaves hv hk
      refine ⟨fun hf _ key hk => ?_, fun hs key hk => ?_⟩
      · rw [← hf key hk, after key hk]
      · rw [after key hk, hs (by simp [hv]) key hk]

end DaoOp

end AsyncGateway
