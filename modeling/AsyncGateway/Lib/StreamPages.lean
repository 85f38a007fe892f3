import AsyncGateway.Lib.Stream
import Mathlib.Data.List.Flatten

/-!
# Library — the pages of a pending list

`autoclaim` takes a consumer through the pending entries page by page: a page ends where `count`
entries were claimed or gone, or ten times as many were looked at (`scanned`).  A page claims the
stale ones among its entries (`scan_eq`) and leaves those behind it as they are
(`pending_behind`), so the pages are those of the pending list as it was at the start (`pages`).
-/

namespace Interleave

namespace GroupStream

variable {β : Type} (s : GroupStream β) (minIdle now : ℚ) (count : ℕ)

/-- A pending entry that is there still, and that nobody moved for long enough. -/
def Stale (p : Delivery) : Prop := p.id ∈ s.entries.map (·.id) ∧ minIdle ≤ now - p.since

instance (p : Delivery) : Decidable (s.Stale minIdle now p) :=
  inferInstanceAs (Decidable (_ ∧ _))

/-- The stale ones among pending entries. -/
def staleOf (ps : List Delivery) : List Delivery := ps.filter fun p => s.Stale minIdle now p

/-- Those whose entry the stream has no more. -/
def goneOf (ps : List Delivery) : List Delivery := ps.filter fun p => p.id ∉ s.entries.map (·.id)

/-- How many pending entries a call looks at. -/
def scanned : ℕ → ℕ → List Delivery → ℕ
  | _, _, [] => 0
  | 0, _, _ :: _ => 0
  | _, 0, _ :: _ => 0
  | attempts + 1, count + 1, p :: ps =>
      scanned attempts
        (if p.id ∈ s.entries.map (·.id) ∧ now - p.since < minIdle then count + 1 else count) ps + 1

variable {s minIdle now count}

theorem staleOf_cons_of_pos {p : Delivery} {ps : List Delivery} (h : s.Stale minIdle now p) :
    s.staleOf minIdle now (p :: ps) = p :: s.staleOf minIdle now ps :=
  List.filter_cons_of_pos (decide_eq_true h)

theorem staleOf_cons_of_neg {p : Delivery} {ps : List Delivery} (h : ¬ s.Stale minIdle now p) :
    s.staleOf minIdle now (p :: ps) = s.staleOf minIdle now ps :=
  List.filter_cons_of_neg (by simpa using h)

theorem staleOf_append (ps qs : List Delivery) :
    s.staleOf minIdle now (ps ++ qs) = s.staleOf minIdle now ps ++ s.staleOf minIdle now qs :=
  List.filter_append ..

theorem goneOf_cons_of_pos {p : Delivery} {ps : List Delivery} (h : p.id ∉ s.entries.map (·.id)) :
    s.goneOf (p :: ps) = p :: s.goneOf ps :=
  List.filter_cons_of_pos (decide_eq_true h)

theorem goneOf_cons_of_neg {p : Delivery} {ps : List Delivery} (h : p.id ∈ s.entries.map (·.id)) :
    s.goneOf (p :: ps) = s.goneOf ps :=
  List.filter_cons_of_neg (by simpa using h)

/-- **What a call finds** is among the entries it looks at: the stale ones, and those that are
gone; and it goes on at the next. -/
theorem scan_eq (attempts count : ℕ) (ps : List Delivery) :
    s.scan minIdle now attempts count ps =
      ((s.staleOf minIdle now (ps.take (s.scanned minIdle now attempts count ps))).map (·.id),
        (s.goneOf (ps.take (s.scanned minIdle now attempts count ps))).map (·.id),
        (ps.drop (s.scanned minIdle now attempts count ps)).head?.map (·.id)) := by
  induction ps generalizing attempts count with
  | nil => cases attempts <;> cases count <;> rfl
  | cons p ps ih =>
      cases attempts with
      | zero => rfl
      | succ attempts =>
          cases count with
          | zero => rfl
          | succ count =>
              simp only [scan, scanned, List.take_succ_cons, List.drop_succ_cons]
              by_cases hthere : p.id ∈ s.entries.map (·.id)
              · rw [if_neg (not_not.mpr hthere), goneOf_cons_of_neg hthere]
                by_cases hfresh : now - p.since < minIdle
                · have hstale : ¬ s.Stale minIdle now p := fun h => absurd h.2 (not_le.mpr hfresh)
                  rw [if_pos hfresh, if_pos ⟨hthere, hfresh⟩, ih, staleOf_cons_of_neg hstale]
                · have hstale : s.Stale minIdle now p := ⟨hthere, not_lt.mp hfresh⟩
                  rw [if_neg hfresh, if_neg fun h => hfresh h.2, ih, staleOf_cons_of_pos hstale]
                  rfl
              · have hstale : ¬ s.Stale minIdle now p := fun h => hthere h.1
                rw [if_pos hthere, if_neg fun h => hthere h.1, ih, goneOf_cons_of_pos hthere,
                  staleOf_cons_of_neg hstale]
                rfl

theorem scanned_pos (s : GroupStream β) (minIdle now : ℚ) {ps : List Delivery} (hcount : 1 ≤ count)
    (hps : ps ≠ []) : 1 ≤ s.scanned minIdle now (10 * count) count ps := by
  obtain ⟨count, rfl⟩ := Nat.exists_eq_add_of_le' hcount
  obtain ⟨p, ps, rfl⟩ := List.exists_cons_of_ne_nil hps
  exact Nat.succ_le_succ (Nat.zero_le _)

variable (s minIdle now count)

/-- The pages of a pending list, as many as there may be. -/
def pagesFrom : ℕ → List Delivery → List (List Delivery)
  | 0, _ => []
  | _ + 1, [] => []
  | n + 1, p :: ps =>
      (p :: ps).take (s.scanned minIdle now (10 * count) count (p :: ps)) ::
        pagesFrom n ((p :: ps).drop (s.scanned minIdle now (10 * count) count (p :: ps)))

/-- The pages of what is pending. -/
def pages : List (List Delivery) := s.pagesFrom minIdle now count s.pending.length s.pending

/-- No page without a stale entry comes before one that has some. -/
def Unbroken : Prop :=
  (s.pages minIdle now count).Pairwise fun page later =>
    s.staleOf minIdle now later ≠ [] → s.staleOf minIdle now page ≠ []

instance : Decidable (s.Unbroken minIdle now count) :=
  inferInstanceAs (Decidable (List.Pairwise _ _))

variable {s minIdle now count}

theorem length_behind (hcount : 1 ≤ count) {n : ℕ} {p : Delivery} {ps : List Delivery}
    (hn : (p :: ps).length ≤ n + 1) :
    ((p :: ps).drop (s.scanned minIdle now (10 * count) count (p :: ps))).length ≤ n := by
  have hpos := scanned_pos s minIdle now hcount (List.cons_ne_nil p ps)
  rw [List.length_drop]
  omega

/-- The pages make up the pending list. -/
theorem flatten_pagesFrom (hcount : 1 ≤ count) {n : ℕ} {ps : List Delivery} (hn : ps.length ≤ n) :
    (s.pagesFrom minIdle now count n ps).flatten = ps := by
  induction n generalizing ps with
  | zero => simp [pagesFrom, List.length_eq_zero_iff.mp (Nat.le_zero.mp hn)]
  | succ n ih =>
      cases ps with
      | nil => rfl
      | cons p ps =>
          rw [pagesFrom, List.flatten_cons, ih (length_behind hcount hn), List.take_append_drop]

theorem pagesFrom_succ (hcount : 1 ≤ count) {n : ℕ} {ps : List Delivery} (hn : ps.length ≤ n) :
    s.pagesFrom minIdle now count (n + 1) ps = s.pagesFrom minIdle now count n ps := by
  induction n generalizing ps with
  | zero =>
      rw [List.length_eq_zero_iff.mp (Nat.le_zero.mp hn)]
      rfl
  | succ n ih =>
      cases ps with
      | nil => rfl
      | cons p ps => rw [pagesFrom, pagesFrom, ih (length_behind hcount hn)]

/-- There are no more pages than entries. -/
theorem pagesFrom_eq (hcount : 1 ≤ count) {n : ℕ} {ps : List Delivery} (hn : ps.length ≤ n) :
    s.pagesFrom minIdle now count n ps = s.pagesFrom minIdle now count ps.length ps := by
  induction n, hn using Nat.le_induction with
  | base => rfl
  | succ n hle ih => rw [pagesFrom_succ hcount hle, ih]

theorem pages_flatten (hcount : 1 ≤ count) : (s.pages minIdle now count).flatten = s.pending :=
  flatten_pagesFrom hcount le_rfl

/-! ### Claiming page by page -/

/-- The pages up to the first without a stale entry. -/
def reached (s : GroupStream β) (minIdle now : ℚ) (pages : List (List Delivery)) :
    List (List Delivery) :=
  pages.takeWhile fun page => decide (s.staleOf minIdle now page ≠ [])

@[simp] theorem reached_nil : s.reached minIdle now [] = [] := rfl

theorem reached_cons_of_pos {page : List Delivery} {pages : List (List Delivery)}
    (h : s.staleOf minIdle now page ≠ []) :
    s.reached minIdle now (page :: pages) = page :: s.reached minIdle now pages :=
  List.takeWhile_cons_of_pos (decide_eq_true h)

theorem reached_cons_of_neg {page : List Delivery} {pages : List (List Delivery)}
    (h : s.staleOf minIdle now page = []) : s.reached minIdle now (page :: pages) = [] :=
  List.takeWhile_cons_of_neg (by simpa using h)

theorem staleOf_flatten_eq_nil {pages : List (List Delivery)} :
    s.staleOf minIdle now pages.flatten = [] ↔ ∀ page ∈ pages, s.staleOf minIdle now page = [] := by
  induction pages with
  | nil => simp [staleOf]
  | cons page pages ih =>
      rw [List.flatten_cons, staleOf_append, List.append_eq_nil_iff, ih, List.forall_mem_cons]

/-- The pages up to the first without a stale entry have all the stale entries exactly where no
such page comes before a stale entry. -/
theorem staleOf_reached_iff {pages : List (List Delivery)} :
    s.staleOf minIdle now (s.reached minIdle now pages).flatten =
        s.staleOf minIdle now pages.flatten ↔
      pages.Pairwise fun page later =>
        s.staleOf minIdle now later ≠ [] → s.staleOf minIdle now page ≠ [] := by
  induction pages with
  | nil => simp [reached]
  | cons page pages ih =>
      rw [List.pairwise_cons, List.flatten_cons, staleOf_append]
      by_cases hpage : s.staleOf minIdle now page = []
      · rw [reached_cons_of_neg hpage, hpage, List.nil_append]
        constructor
        · intro h
          have hnone := staleOf_flatten_eq_nil.mp h.symm
          refine ⟨fun later hlater hne => absurd (hnone later hlater) hne, ?_⟩
          refine (List.pairwise_of_forall (R := fun _ _ => True) fun _ _ => trivial).imp_of_mem ?_
          exact fun _ hlater _ hne => absurd (hnone _ hlater) hne
        · rintro ⟨h, -⟩
          exact (staleOf_flatten_eq_nil.mpr fun later hlater => by
            by_contra hne
            exact h later hlater hne rfl).symm
      · rw [reached_cons_of_pos hpage, List.flatten_cons, staleOf_append,
          List.append_cancel_left_eq, ih]
        exact ⟨fun h => ⟨fun _ _ _ => hpage, h⟩, fun h => h.2⟩

theorem staleOf_reached_sublist (s : GroupStream β) (minIdle now : ℚ)
    (pages : List (List Delivery)) :
    (s.staleOf minIdle now (s.reached minIdle now pages).flatten).Sublist
      (s.staleOf minIdle now pages.flatten) :=
  (List.takeWhile_sublist _).flatten.filter _

theorem Sound.staleOf_nodup (h : s.Sound) :
    ((s.staleOf minIdle now s.pending).map (·.id)).Nodup :=
  (h.pending_ascending.sublist (List.filter_sublist.map _)).imp Nat.ne_of_lt

/-! ### What a call leaves behind the page -/

variable {consumer : String} {start : ℕ} {ps : List Delivery}

theorem scanned_congr {s' : GroupStream β} (h : s'.entries = s.entries) (attempts count : ℕ)
    (ps : List Delivery) :
    s'.scanned minIdle now attempts count ps = s.scanned minIdle now attempts count ps := by
  induction ps generalizing attempts count with
  | nil => cases attempts <;> cases count <;> rfl
  | cons p ps ih =>
      cases attempts with
      | zero => rfl
      | succ attempts =>
          cases count with
          | zero => rfl
          | succ count => rw [scanned, scanned, ih, h]

theorem pagesFrom_congr {s' : GroupStream β} (h : s'.entries = s.entries) (n : ℕ)
    (ps : List Delivery) :
    s'.pagesFrom minIdle now count n ps = s.pagesFrom minIdle now count n ps := by
  induction n generalizing ps with
  | zero => rfl
  | succ n ih =>
      cases ps with
      | nil => rfl
      | cons p ps => rw [pagesFrom, pagesFrom, ih, scanned_congr h]

theorem staleOf_congr {s' : GroupStream β} (h : s'.entries = s.entries) (ps : List Delivery) :
    s'.staleOf minIdle now ps = s.staleOf minIdle now ps := by
  refine List.filter_congr fun p _ => decide_eq_decide.mpr ?_
  unfold Stale
  rw [h]

theorem reached_congr {s' : GroupStream β} (h : s'.entries = s.entries)
    (pages : List (List Delivery)) :
    s'.reached minIdle now pages = s.reached minIdle now pages := by
  unfold reached
  simp only [staleOf_congr h]

theorem claimedIds_eq (hps : s.pending.filter (start ≤ ·.id) = ps) :
    s.claimedIds minIdle start count now =
      (s.staleOf minIdle now
        (ps.take (s.scanned minIdle now (10 * count) count ps))).map (·.id) := by
  rw [claimedIds, hps, scan_eq]

/-- The entries a call hands out are the stale ones of its page. -/
theorem autoclaim_ids (h : s.Sound) (hps : s.pending.filter (start ≤ ·.id) = ps) :
    (s.autoclaim consumer minIdle start count now).2.1.map (·.id) =
      (s.staleOf minIdle now
        (ps.take (s.scanned minIdle now (10 * count) count ps))).map (·.id) := by
  rw [autoclaim_entries, claimedIds_eq hps]
  have hsub : ((s.staleOf minIdle now
      (ps.take (s.scanned minIdle now (10 * count) count ps))).map (·.id)).Sublist
        (s.pending.map (·.id)) := by
    refine List.Sublist.map _ ((List.filter_sublist.trans (List.take_sublist _ _)).trans ?_)
    exact hps ▸ List.filter_sublist
  refine List.Perm.eq_of_pairwise (fun a b _ _ (hab : a < b) hba => absurd hab hba.not_gt)
    (h.ascending.sublist (List.filter_sublist.map _)) (h.pending_ascending.sublist hsub) ?_
  refine (List.perm_ext_iff_of_nodup ?_ ?_).mpr fun id => ?_
  · exact (h.ascending.sublist (List.filter_sublist.map _)).imp Nat.ne_of_lt
  · exact (h.pending_ascending.sublist hsub).imp Nat.ne_of_lt
  · constructor
    · intro hid
      obtain ⟨e, he, rfl⟩ := List.mem_map.mp hid
      exact of_decide_eq_true (List.mem_filter.mp he).2
    · intro hid
      obtain ⟨p, hp, rfl⟩ := List.mem_map.mp hid
      have hthere := (of_decide_eq_true (List.mem_filter.mp hp).2 : s.Stale minIdle now p).1
      obtain ⟨e, he, heq⟩ := List.mem_map.mp hthere
      refine List.mem_map.mpr ⟨e, List.mem_filter.mpr ⟨he, decide_eq_true ?_⟩, heq⟩
      rw [heq]
      exact hid

/-- The call goes on at the first entry behind its page. -/
theorem autoclaim_next (hps : s.pending.filter (start ≤ ·.id) = ps) :
    (s.autoclaim consumer minIdle start count now).1 =
      ((ps.drop (s.scanned minIdle now (10 * count) count ps)).head?.map (·.id)).getD 0 := by
  simp only [autoclaim, hps, scan_eq]

/-- What is pending behind a page is as it was. -/
theorem pending_behind (h : s.Sound) (hps : s.pending.filter (start ≤ ·.id) = ps) {q : Delivery}
    {qs : List Delivery}
    (hq : ps.drop (s.scanned minIdle now (10 * count) count ps) = q :: qs) :
    (s.autoclaim consumer minIdle start count now).2.2.pending.filter (q.id ≤ ·.id) = q :: qs := by
  set page := ps.take (s.scanned minIdle now (10 * count) count ps) with hpage
  have hsplit : page ++ q :: qs = ps := hq ▸ List.take_append_drop _ ps
  have hasc : (ps.map (·.id)).Pairwise (· < ·) :=
    h.pending_ascending.sublist (hps ▸ List.filter_sublist.map _)
  rw [← hsplit, List.map_append, List.pairwise_append, List.map_cons, List.pairwise_cons] at hasc
  obtain ⟨-, ⟨hqs, -⟩, hcross⟩ := hasc
  have hlt : ∀ p ∈ page, p.id < q.id := fun p hp =>
    hcross _ (List.mem_map_of_mem hp) _ List.mem_cons_self
  have hle : ∀ p ∈ q :: qs, q.id ≤ p.id := by
    intro p hp
    rcases List.mem_cons.mp hp with rfl | hp
    · exact le_rfl
    · exact (hqs _ (List.mem_map_of_mem hp)).le
  have hstart : start ≤ q.id := by
    have hmem : q ∈ s.pending.filter (start ≤ ·.id) := by
      rw [hps, ← hsplit]
      simp
    simpa using (List.mem_filter.mp hmem).2
  -- an entry from `q` on was neither claimed nor gone
  have huntouched : ∀ (chosen : List Delivery), (∀ p ∈ chosen, p ∈ page) →
      ∀ p : Delivery, q.id ≤ p.id → p.id ∉ chosen.map (·.id) := by
    intro chosen hchosen p hp hmem
    obtain ⟨p', hp', heq⟩ := List.mem_map.mp hmem
    exact absurd (heq ▸ hlt p' (hchosen p' hp')) hp.not_gt
  have hbehind : s.pending.filter (q.id ≤ ·.id) = q :: qs := by
    have hfilter : s.pending.filter (q.id ≤ ·.id) = ps.filter (q.id ≤ ·.id) := by
      rw [← hps, List.filter_filter]
      refine List.filter_congr fun p _ => ?_
      by_cases hp : q.id ≤ p.id
      · simp [hp, hstart.trans hp]
      · simp [hp]
    rw [hfilter, ← hsplit, List.filter_append,
      List.filter_eq_nil_iff.mpr fun p hp => by simpa using hlt p hp, List.nil_append]
    exact List.filter_eq_self.mpr fun p hp => by simpa using hle p hp
  rw [← hbehind]
  simp only [autoclaim, hps, scan_eq, ← hpage]
  rw [List.filter_map, List.filter_filter]
  have hkept : ∀ p : Delivery, q.id ≤ p.id →
      p.id ∉ (s.staleOf minIdle now page).map (·.id) ∧ p.id ∉ (s.goneOf page).map (·.id) :=
    fun p hp => ⟨huntouched _ (fun _ h => List.mem_of_mem_filter h) p hp,
      huntouched _ (fun _ h => List.mem_of_mem_filter h) p hp⟩
  have hsame : ∀ p ∈ s.pending.filter (q.id ≤ ·.id),
      (if p.id ∈ (s.staleOf minIdle now page).map (·.id) then
        { p with consumer := consumer, since := now, count := p.count + 1 } else p) = p :=
    fun p hp => if_neg (hkept p (by simpa using (List.mem_filter.mp hp).2)).1
  refine (congrArg (List.map _) (List.filter_congr (q := (q.id ≤ ·.id)) fun p _ => ?_)).trans
    ((List.map_congr_left hsame).trans (List.map_id' _))
  have hid : (if p.id ∈ (s.staleOf minIdle now page).map (·.id) then
      { p with consumer := consumer, since := now, count := p.count + 1 } else p : Delivery).id =
        p.id := by split <;> rfl
  simp only [Function.comp_apply, hid]
  by_cases hp : q.id ≤ p.id
  · simpa [hp] using (hkept p hp).2
  · simp [hp]

/-- What a call at a page answers and leaves, with `rest` behind the page. -/
structure Paged (s : GroupStream β) (minIdle now : ℚ) (page rest : List Delivery) (next : ℕ)
    (entries : List (StreamEntry β)) (s' : GroupStream β) : Prop where
  ids : entries.map (·.id) = (s.staleOf minIdle now page).map (·.id)
  mem : ∀ e ∈ entries, e ∈ s.entries
  next_eq : next = (rest.head?.map (·.id)).getD 0
  same : s'.entries = s.entries
  sound : s'.Sound
  pending : ∀ p ∈ s'.pending, ∃ p' ∈ s.pending, p.id = p'.id
  behind : ∀ q qs, rest = q :: qs → s'.pending.filter (q.id ≤ ·.id) = q :: qs

/-- **A call claims its page** and leaves the pages behind it. -/
theorem autoclaim_paged (consumer : String) (minIdle : ℚ) (count : ℕ) (now : ℚ) (h : s.Sound)
    (hps : s.pending.filter (start ≤ ·.id) = ps) :
    Paged s minIdle now (ps.take (s.scanned minIdle now (10 * count) count ps))
      (ps.drop (s.scanned minIdle now (10 * count) count ps))
      (s.autoclaim consumer minIdle start count now).1
      (s.autoclaim consumer minIdle start count now).2.1
      (s.autoclaim consumer minIdle start count now).2.2 where
  ids := autoclaim_ids h hps
  mem := fun _ he => List.mem_of_mem_filter he
  next_eq := autoclaim_next hps
  same := rfl
  sound := h.autoclaim consumer minIdle start count now
  pending := fun _ hp =>
    have ⟨p', hp', hid, _⟩ := mem_autoclaim_pending hp
    ⟨p', hp', hid⟩
  behind := fun _ _ hq => pending_behind h hps hq

namespace Paged

variable {page rest : List Delivery} {next : ℕ} {entries : List (StreamEntry β)}
variable {s' : GroupStream β}

theorem entries_eq_nil (h : Paged s minIdle now page rest next entries s') :
    entries = [] ↔ s.staleOf minIdle now page = [] := by
  rw [← List.map_eq_nil_iff (f := fun e : StreamEntry β => e.id), h.ids, List.map_eq_nil_iff]

/-- The cursor is at its end where nothing is behind the page. -/
theorem next_eq_zero (h : Paged s minIdle now page rest next entries s')
    (hpos : ∀ p ∈ rest, 0 < p.id) : next = 0 ↔ rest = [] := by
  rw [h.next_eq]
  cases rest with
  | nil => simp
  | cons q qs => simpa using (hpos q List.mem_cons_self).ne'

end Paged

end GroupStream

end Interleave
