import AsyncGateway.Gateway.Routing
import AsyncGateway.Lib.Holes
import AsyncGateway.Templates.Render

/-!
# Gateway — the paths that are rendered are the ones that are matched

A path is rendered with the id in every place of `{id}` (`renderPath`), and told again by a pattern
made of the same template (`matchRoute`).  `RoundTrips t` says that the second undoes the first,
that a create is told as one, and that no path makes the comparison raise.  `roundTrips_iff` says
for which templates it does: `{id}` stands in both paths before their query; where it stands in one
twice, a character no id has is between the first two places; and no cancel path can be the one of a
create.
-/

namespace AsyncGateway

/-! ### A path with an id in its places -/

/-- `path.replace("{id}", id)`. -/
def fillId (id path : List Char) : List Char := id.intercalate (pieces path)

def idPlace : List Char := ['{', 'i', 'd', '}']

theorem length_idPlace : idPlace.length = 4 := rfl

section Fill

variable {id : List Char}

theorem pieces_place (cs : List Char) : pieces (idPlace ++ cs) = [] :: pieces cs := rfl

theorem pieces_char {c : Char} {cs : List Char} (h : ¬ idPlace <+: c :: cs) :
    pieces (c :: cs) =
      match pieces cs with
      | [] => [[c]]
      | l :: ls => (c :: l) :: ls := by
  refine pieces.eq_3 c cs ?_
  rintro cs' rfl rfl
  exact h ⟨cs', rfl⟩

/-- A path is empty, or starts with a place, or with another character. -/
theorem place_induction {P : List Char → Prop} (nil : P [])
    (place : ∀ cs, P cs → P (idPlace ++ cs))
    (char : ∀ c cs, ¬ idPlace <+: c :: cs → P cs → P (c :: cs)) : ∀ cs, P cs := by
  suffices h : ∀ n, ∀ cs : List Char, cs.length ≤ n → P cs from fun cs => h _ cs le_rfl
  intro n
  induction n with
  | zero => exact fun cs h => List.length_eq_zero_iff.mp (Nat.le_zero.mp h) ▸ nil
  | succ n ih =>
      intro cs h
      cases cs with
      | nil => exact nil
      | cons c cs =>
          by_cases hp : idPlace <+: c :: cs
          · obtain ⟨rest, hrest⟩ := hp
            rw [← hrest] at h ⊢
            exact place _ (ih _ (by rw [List.length_append, length_idPlace] at h; omega))
          · exact char _ _ hp (ih _ (Nat.le_of_succ_le_succ h))

theorem pieces_ne_nil (cs : List Char) : pieces cs ≠ [] := by
  induction cs using place_induction with
  | nil => simp [pieces]
  | place cs ih => simp [pieces_place]
  | char c cs h ih =>
      rw [pieces_char h]
      split <;> simp

@[simp] theorem fillId_nil : fillId id [] = [] := by
  simp [fillId, pieces]

theorem fillId_place (cs : List Char) : fillId id (idPlace ++ cs) = id ++ fillId id cs := by
  rw [fillId, pieces_place]
  obtain ⟨l, ls, h⟩ := List.exists_cons_of_ne_nil (pieces_ne_nil cs)
  rw [fillId, h, List.intercalate_cons_cons, List.nil_append]

theorem fillId_char {c : Char} {cs : List Char} (h : ¬ idPlace <+: c :: cs) :
    fillId id (c :: cs) = c :: fillId id cs := by
  rw [fillId, pieces_char h, fillId]
  obtain ⟨l, ls, h⟩ := List.exists_cons_of_ne_nil (pieces_ne_nil cs)
  rw [h]
  cases ls with
  | nil => simp
  | cons l' ls => simp [List.intercalate_cons_cons]

theorem replaceId_eq {n : ℕ} {cs : List Char} (h : cs.length ≤ n) :
    replaceId id n cs = fillId id cs := by
  induction n generalizing cs with
  | zero => 
      rw [List.length_eq_zero_iff.mp (Nat.le_zero.mp h)]
      simp [replaceId]
  | succ n ih =>
      cases cs with
      | nil => simp [replaceId]
      | cons c cs =>
          rw [replaceId]
          split
          · rename_i hp
            obtain ⟨rest, hrest⟩ : idPlace <+: c :: cs := List.isPrefixOf_iff_prefix.mp hp
            have hdrop : cs.drop 3 = rest := by
              have h := congrArg (List.drop 4) hrest
              simpa [List.drop_left' length_idPlace] using h.symm
            have hlen : rest.length ≤ n := by
              rw [← hdrop, List.length_drop]
              exact (Nat.sub_le _ _).trans (Nat.le_of_succ_le_succ h)
            rw [← hrest, fillId_place, hdrop, ih hlen]
          · rename_i hp
            rw [fillId_char fun h => hp (List.isPrefixOf_iff_prefix.mpr h),
              ih (Nat.le_of_succ_le_succ h)]

/-- Where nothing that could end a place comes next, the two parts are filled on their own. -/
theorem fillId_append {a b : List Char} (hb : ∀ c, b.head? = some c → c ∉ ['i', 'd', '}']) :
    fillId id (a ++ b) = fillId id a ++ fillId id b := by
  induction a using place_induction with
  | nil => simp
  | place cs ih => rw [List.append_assoc, fillId_place, fillId_place, ih, List.append_assoc]
  | char c cs h ih =>
      have hnot : ¬ idPlace <+: c :: (cs ++ b) := by
        intro hp
        rcases List.prefix_or_prefix_of_prefix hp (List.prefix_append (c :: cs) b) with hp' | hp'
        · exact h hp'
        · -- the place would end behind the first part
          obtain ⟨t, ht⟩ := hp'
          have htail : cs ++ t = ['i', 'd', '}'] := (List.cons.inj ht).2
          rw [← ht, ← List.cons_append, List.prefix_append_right_inj] at hp
          cases t with
          | nil => exact h ⟨[], by simpa using ht.symm⟩
          | cons x t =>
              obtain ⟨rest, rfl⟩ := hp
              exact hb x rfl (htail ▸ List.mem_append_right _ List.mem_cons_self)
      rw [List.cons_append, fillId_char hnot, fillId_char h, ih, List.cons_append]

theorem mem_fillId {c : Char} {cs : List Char} (h : c ∈ fillId id cs) : c ∈ id ∨ c ∈ cs := by
  induction cs using place_induction with
  | nil => simp at h
  | place cs ih =>
      rw [fillId_place, List.mem_append] at h
      rcases h with h | h
      · exact .inl h
      · exact (ih h).imp_right (List.mem_append_right _)
  | char d cs hd ih =>
      rw [fillId_char hd, List.mem_cons] at h
      rcases h with rfl | h
      · exact .inr List.mem_cons_self
      · exact (ih h).imp_right (List.mem_cons_of_mem _)

theorem fillId_of_not_mem {cs : List Char} (h : '{' ∉ cs) : fillId id cs = cs := by
  induction cs with
  | nil => simp
  | cons c cs ih =>
      have hnot : ¬ idPlace <+: c :: cs := fun hp => h (hp.subset List.mem_cons_self)
      rw [fillId_char hnot, ih fun hmem => h (List.mem_cons_of_mem _ hmem)]

theorem fillId_eq_nil {cs : List Char} (hid : id ≠ []) : fillId id cs = [] ↔ cs = [] := by
  induction cs using place_induction with
  | nil => simp
  | place cs ih =>
      rw [fillId_place]
      simp [hid, idPlace]
  | char c cs h ih => simp [fillId_char h]

/-- The last character of a filled path is one of the id, or the last of the path. -/
theorem getLast_fillId {c : Char} {cs : List Char} (hid : id ≠ [])
    (h : (fillId id cs).getLast? = some c) : c ∈ id ∨ cs.getLast? = some c := by
  induction cs using place_induction with
  | nil => simp at h
  | place cs ih =>
      rw [fillId_place, List.getLast?_append] at h
      rw [List.getLast?_append]
      cases hl : (fillId id cs).getLast? with
      | some x =>
          rw [hl, Option.some_or] at h
          exact (ih (hl.trans h)).imp_right fun h => by rw [h, Option.some_or]
      | none =>
          rw [hl, Option.none_or] at h
          exact .inl (List.mem_of_getLast? h)
  | char d cs hd ih =>
      rw [fillId_char hd, List.getLast?_cons] at h
      rw [List.getLast?_cons]
      cases hl : (fillId id cs).getLast? with
      | some x =>
          rw [hl] at h
          refine (ih (hl.trans h)).imp_right fun hc => ?_
          rw [hc]
          rfl
      | none =>
          rw [List.getLast?_eq_none_iff, fillId_eq_nil hid] at hl
          subst hl
          rw [fillId_nil] at h
          exact .inr h

end Fill

/-! ### Normalized paths -/

/-- What `normalizePath` leaves of a path with a slash in front, up to the slash of the root. -/
def trimPath (path : List Char) : List Char :=
  ((path.takeWhile (· ≠ '?')).rdropWhile Text.isSpace).rdropWhile (· = '/')

theorem head_rdropWhile {p : Char → Bool} {c : Char} {cs : List Char} (h : cs.head? = some c)
    (hc : p c = false) : (cs.rdropWhile p).head? = some c := by
  obtain ⟨t, ht⟩ := List.rdropWhile_prefix p cs
  cases hd : cs.rdropWhile p with
  | nil =>
      have hall := List.rdropWhile_eq_nil_iff.mp hd c (List.mem_of_head? h)
      rw [hc] at hall
      cases hall
  | cons x xs =>
      rw [hd] at ht
      rwa [← ht] at h

theorem head_takeWhile {p : Char → Bool} {c : Char} {cs : List Char} (h : cs.head? = some c)
    (hc : p c = true) : (cs.takeWhile p).head? = some c := by
  cases cs with
  | nil => cases h
  | cons x cs =>
      rw [List.head?_cons, Option.some.injEq] at h
      subst h
      rw [List.takeWhile_cons_of_pos hc, List.head?_cons]

theorem normalizePath_eq {path : List Char} (h : path.head? = some '/') :
    normalizePath path = if trimPath path = [] then ['/'] else trimPath path := by
  have hcut : (path.takeWhile (· ≠ '?')).head? = some '/' := head_takeWhile h (by decide)
  have hstrip : Text.strip (path.takeWhile (· ≠ '?')) =
      (path.takeWhile (· ≠ '?')).rdropWhile Text.isSpace := by
    obtain ⟨rest, hrest⟩ : ∃ rest, path.takeWhile (· ≠ '?') = '/' :: rest := by
      cases hp : path.takeWhile (· ≠ '?') with
      | nil => rw [hp] at hcut; cases hcut
      | cons c rest => exact ⟨rest, by rw [hp] at hcut; simpa using hcut⟩
    rw [hrest]
    rfl
  have hhead : ((path.takeWhile (· ≠ '?')).rdropWhile Text.isSpace).head? = some '/' :=
    head_rdropWhile hcut (by decide)
  rw [normalizePath, hstrip]
  simp only [hhead, if_true]
  rfl

section Fill

variable {id : List Char}

theorem fillId_takeWhile {p : Char → Bool} {path : List Char} (stop : Char)
    (hp : ∀ c, p c = true ↔ c ≠ stop) (hstop : stop ∉ idPlace) (hid : stop ∉ id) :
    (fillId id path).takeWhile p = fillId id (path.takeWhile p) := by
  have hsplit := (List.takeWhile_append_dropWhile (p := p) (l := path)).symm
  have hfill : ∀ c ∈ fillId id (path.takeWhile p), p c = true := by
    intro c hc
    rcases mem_fillId hc with hc | hc
    · exact (hp c).mpr fun h => hid (h ▸ hc)
    · exact List.all_eq_true.mp List.all_takeWhile c hc
  cases hd : path.dropWhile p with
  | nil =>
      rw [hd, List.append_nil] at hsplit
      rw [← hsplit] at hfill ⊢
      exact List.takeWhile_eq_self_iff.mpr hfill
  | cons c rest =>
      have hc : c = stop := by
        have hnot := List.head?_dropWhile_not p path
        rw [hd] at hnot
        by_contra h
        simp [(hp c).mpr h] at hnot
      subst hc
      have hplace : ¬ idPlace <+: c :: rest := by
        rintro ⟨t, ht⟩
        exact hstop ((List.cons.inj ht).1 ▸ List.mem_cons_self)
      have happ : fillId id path = fillId id (path.takeWhile p) ++ c :: fillId id rest := by
        conv_lhs => rw [hsplit, hd]
        rw [fillId_append, fillId_char hplace]
        intro x hx
        rw [List.head?_cons, Option.some.injEq] at hx
        subst hx
        exact fun hmem => hstop (List.mem_cons_of_mem _ hmem)
      rw [happ, List.takeWhile_append_of_pos hfill, List.takeWhile_cons_of_neg, List.append_nil]
      simp [hp]

theorem rdropWhile_append_of_pos {q : Char → Bool} {a b : List Char}
    (hb : ∀ c ∈ b, q c = true) : (a ++ b).rdropWhile q = a.rdropWhile q := by
  rw [List.rdropWhile, List.reverse_append,
    List.dropWhile_append_of_pos fun c hc => hb c (List.mem_reverse.mp hc)]
  rfl

theorem fillId_rdropWhile {q : Char → Bool} (hne : id ≠ []) (hplace : ∀ c ∈ idPlace, q c = false)
    (hid : ∀ c ∈ id, q c = false) (path : List Char) :
    (fillId id path).rdropWhile q = fillId id (path.rdropWhile q) := by
  have hend : ∀ c ∈ path.rtakeWhile q, q c = true := fun c hc => List.mem_rtakeWhile_imp hc
  have hnot : ∀ c ∈ idPlace, c ∉ path.rtakeWhile q := by
    intro c hc hmem
    have h := hend c hmem
    rw [hplace c hc] at h
    cases h
  have happ : fillId id path = fillId id (path.rdropWhile q) ++ path.rtakeWhile q := by
    conv_lhs => rw [← List.rdropWhile_append_rtakeWhile (p := q) (l := path)]
    rw [fillId_append, fillId_of_not_mem (hnot '{' (by decide))]
    intro c hc hmem
    exact hnot c (List.mem_cons_of_mem _ hmem) (List.mem_of_head? hc)
  rw [happ, rdropWhile_append_of_pos hend, List.rdropWhile_eq_self_iff]
  intro hl
  rcases getLast_fillId hne (List.getLast?_eq_some_getLast hl) with hc | hc
  · simp [hid _ hc]
  · have hl' : path.rdropWhile q ≠ [] := fun h => hl (by rw [h, fillId_nil])
    rw [List.getLast?_eq_some_getLast hl', Option.some.injEq] at hc
    rw [← hc]
    exact List.rdropWhile_last_not q path hl'

theorem of_mem_place {q : Char → Bool} (h : idPlace.all (fun c => !q c) = true) :
    ∀ c ∈ idPlace, q c = false := fun c hc => by simpa using List.all_eq_true.mp h c hc

theorem unreserved_range {c : Char} (h : unreserved c = true) :
    45 ≤ c.toNat ∧ c.toNat ≤ 126 := by
  simp only [unreserved, Bool.or_eq_true, Bool.and_eq_true, decide_eq_true_eq, beq_iff_eq,
    Char.le_def, UInt32.le_iff_toNat_le] at h
  have hA : 'A'.val.toNat = 65 := rfl
  have hZ : 'Z'.val.toNat = 90 := rfl
  have ha : 'a'.val.toNat = 97 := rfl
  have hz : 'z'.val.toNat = 122 := rfl
  have h0 : '0'.val.toNat = 48 := rfl
  have h9 : '9'.val.toNat = 57 := rfl
  have hc : c.toNat = c.val.toNat := rfl
  rcases h with (((((h | h) | h) | rfl) | rfl) | rfl) | rfl
  · omega
  · omega
  · omega
  all_goals decide

theorem not_isSpace {c : Char} (h : unreserved c = true) : Text.isSpace c = false := by
  have hrange := unreserved_range h
  simp only [Text.isSpace, decide_eq_false_iff_not]
  omega

theorem head_fillId {path : List Char} (h : path.head? = some '/') :
    (fillId id path).head? = some '/' := by
  cases path with
  | nil => cases h
  | cons c rest =>
      rw [List.head?_cons, Option.some.injEq] at h
      subst h
      rw [fillId_char (by rintro ⟨t, ht⟩; exact absurd (List.cons.inj ht).1 (by decide))]
      rfl

theorem trimPath_fillId (hne : id ≠ []) (hid : ∀ c ∈ id, unreserved c = true)
    (path : List Char) : trimPath (fillId id path) = fillId id (trimPath path) := by
  have hnot : ∀ c, unreserved c = false → c ∉ id := fun c hc hmem => by simp [hid c hmem] at hc
  rw [trimPath, trimPath, fillId_takeWhile '?' (by simp) (by decide) (hnot _ (by decide)),
    fillId_rdropWhile hne (of_mem_place (by decide)) fun c hc => not_isSpace (hid c hc),
    fillId_rdropWhile hne (of_mem_place (by decide))]
  intro c hc
  rw [decide_eq_false_iff_not]
  rintro rfl
  exact hnot '/' (by decide) hc

/-- **Normalizing a filled path fills the normalized one.** -/
theorem normalizePath_fillId (hne : id ≠ []) (hid : ∀ c ∈ id, unreserved c = true)
    {path : List Char} (h : path.head? = some '/') :
    normalizePath (fillId id path) = fillId id (normalizePath path) := by
  rw [normalizePath_eq h, normalizePath_eq (head_fillId h), trimPath_fillId hne hid]
  simp only [fillId_eq_nil hne]
  split
  · rfl
  · rfl

end Fill

/-! ### What is rendered -/

/-- An id that `sanitize` lets through. -/
structure SafeId (id : List Char) : Prop where
  ne_nil : id ≠ []
  no_dots : ¬ ['.', '.'] <:+: id
  unreserved : ∀ c ∈ id, AsyncGateway.unreserved c = true
  length_le : id.length ≤ 256

theorem not_isSpace_of_unreserved {c : Char} (h : unreserved c = true) :
    Text.isSpace c = false := by
  rw [Text.isSpace, decide_eq_false_iff_not]
  simp only [unreserved, Bool.or_eq_true, Bool.and_eq_true, decide_eq_true_eq, beq_iff_eq,
    Char.le_def, UInt32.le_iff_toNat_le] at h
  change ¬ ((9 ≤ c.val.toNat ∧ _) ∨ _)
  rcases h with ((((((⟨h, h'⟩ | ⟨h, h'⟩) | ⟨h, h'⟩) | rfl) | rfl) | rfl) | rfl)
  all_goals simp at *
  all_goals omega

/-- What the pattern of safe ids lets through, but for dots, the pattern of dangerous ones does. -/
theorem dangerous_iff_of_unreserved {id : List Char} (h : ∀ c ∈ id, unreserved c = true) :
    dangerous id = true ↔ ['.', '.'] <:+: id := by
  have hsafe : ∀ c ∈ "/\\:%?#@".toList, ¬ unreserved c = true := by
    simp [unreserved]
  have hnone : id.any (fun c => decide (c ∈ "/\\:%?#@".toList) || Text.isSpace c) = false := by
    refine List.any_eq_false.mpr fun c hc => ?_
    rw [not_isSpace_of_unreserved (h c hc), Bool.or_false, decide_eq_true_eq]
    exact fun hmem => hsafe c hmem (h c hc)
  rw [dangerous, hnone, Bool.false_or]
  exact Text.occursIn_iff

theorem sanitize_eq_ok {raw s : String} : sanitize raw = .ok s ↔ s = raw ∧ SafeId raw.toList := by
  unfold sanitize
  by_cases hnil : raw.toList = []
  · simp only [hnil, if_true, reduceCtorEq, false_iff, not_and]
    exact fun _ h => h.ne_nil rfl
  · rw [if_neg hnil]
    by_cases hdang : dangerous raw.toList = true
    · rw [if_pos hdang]
      simp only [reduceCtorEq, false_iff, not_and]
      rintro - ⟨-, hdots, hun, -⟩
      exact hdots ((dangerous_iff_of_unreserved hun).mp hdang)
    · rw [if_neg hdang]
      by_cases hbad : ¬ raw.toList.all unreserved ∨ 256 < raw.toList.length
      · rw [if_pos hbad]
        simp only [reduceCtorEq, false_iff, not_and]
        rintro - ⟨-, -, hun, hlen⟩
        rcases hbad with h | h
        · exact h (List.all_eq_true.mpr hun)
        · omega
      · rw [if_neg hbad]
        simp only [not_or, not_not, not_lt] at hbad
        obtain ⟨hall, hlen⟩ := hbad
        have hun := List.all_eq_true.mp hall
        rw [Except.ok.injEq, eq_comm, and_iff_left]
        exact ⟨hnil, fun h => hdang ((dangerous_iff_of_unreserved hun).mpr h), hun, hlen⟩

/-- A path that is let through when the id is in it. -/
structure Clean (path : List Char) : Prop where
  no_open : '{' ∉ path
  no_close : '}' ∉ path
  no_dots : ¬ ['.', '.'] <:+: path

theorem renderPath_eq_ok {template id path : String}
    (h : ResolvedTemplate.hasIdPlaceholder template = true) :
    renderPath template id = .ok path ↔ SafeId id.toList ∧
      Clean (fillId id.toList template.toList) ∧
      path = String.ofList (fillId id.toList template.toList) := by
  have hfill : replaceId id.toList template.length template.toList =
      fillId id.toList template.toList := replaceId_eq String.length_toList.le
  unfold renderPath
  rw [if_pos h]
  cases hs : sanitize id with
  | error x =>
      simp only [bind, Except.bind, reduceCtorEq, false_iff, not_and]
      intro hsafe
      have hok : sanitize id = .ok id := sanitize_eq_ok.mpr ⟨rfl, hsafe⟩
      rw [hs] at hok
      cases hok
  | ok safe =>
      obtain ⟨rfl, hsafe⟩ := sanitize_eq_ok.mp hs
      simp only [bind, Except.bind, hfill]
      by_cases hbrace : '{' ∈ fillId safe.toList template.toList ∨
          '}' ∈ fillId safe.toList template.toList
      · rw [if_pos hbrace]
        simp only [reduceCtorEq, false_iff, not_and]
        exact fun _ hc => absurd hbrace (by simp [hc.no_open, hc.no_close])
      · rw [if_neg hbrace]
        by_cases hdots : Text.occursIn "..".toList (fillId safe.toList template.toList) = true
        · rw [if_pos hdots]
          simp only [reduceCtorEq, false_iff, not_and]
          exact fun _ hc => absurd (Text.occursIn_iff.mp hdots) hc.no_dots
        · rw [if_neg hdots, Except.ok.injEq]
          rw [not_or] at hbrace
          have hclean : Clean (fillId safe.toList template.toList) :=
            ⟨hbrace.1, hbrace.2, fun h => hdots (Text.occursIn_iff.mpr h)⟩
          exact ⟨fun h => ⟨hsafe, hclean, h.symm⟩, fun h => h.2.2.symm⟩

/-! ### What is matched -/

def slashless (c : Char) : Bool := decide (c ≠ '/')

/-- What `/?$` matches to the end. -/
def AtPathEnd (rest : List Char) : Prop := rest ∈ [[], ['/'], ['\n'], ['/', '\n']]

theorem ends_pathEnd {before : Option Char} {y : List Char} :
    pathEnd.ends (before, y) ≠ [] ↔ AtPathEnd y := by
  rw [pathEnd, Pattern.ends_seq_ne_nil, AtPathEnd]
  rcases y with _ | ⟨c, y⟩
  · simp [Pattern.ends]
  · by_cases hc : c = '/'
    · subst hc
      by_cases hy : y = [] <;> simp [Pattern.ends, hy]
    · simp [Pattern.ends, hc]

theorem ends_literal_seq {l : List Char} {a : Pattern} {Q : List Char → Prop}
    (hQ : ∀ before y, a.ends (before, y) ≠ [] ↔ Q y) {before : Option Char} {y : List Char} :
    (Pattern.seq (.literal l) a).ends (before, y) ≠ [] ↔ ∃ z, y = l ++ z ∧ Q z := by
  rw [Pattern.ends_seq_ne_nil]
  constructor
  · rintro ⟨c, hc, ha⟩
    obtain ⟨z, rfl⟩ : l <+: y := Pattern.ends_literal.mp (List.ne_nil_of_mem hc)
    obtain ⟨before', hends⟩ := Pattern.ends_literal_append l before z
    rw [hends, List.mem_singleton] at hc
    subst hc
    exact ⟨z, rfl, (hQ _ _).mp ha⟩
  · rintro ⟨z, rfl, hz⟩
    obtain ⟨before', hends⟩ := Pattern.ends_literal_append l before z
    exact ⟨(before', z), hends ▸ List.mem_singleton_self _, (hQ _ _).mpr hz⟩

/-- **The pattern of some pieces matches what can be read as them.** -/
theorem ends_piecesPattern {ls : List (List Char)} {before : Option Char} {y : List Char} :
    (piecesPattern ls).ends (before, y) ≠ [] ↔ Holes.Fits slashless AtPathEnd ls y := by
  induction ls generalizing before y with
  | nil => exact ends_pathEnd
  | cons l ls ih =>
      cases ls with
      | nil => exact ends_literal_seq fun _ _ => ends_pathEnd
      | cons l' ls =>
          refine (ends_literal_seq (Q := fun z => ∃ w z', z = w ++ z' ∧ w ≠ [] ∧
            (∀ c ∈ w, slashless c = true) ∧ Holes.Fits slashless AtPathEnd (l' :: ls) z')
            fun before y => ?_).trans ?_
          · rw [Pattern.ends_seq_ne_nil, ← @Pattern.exists_mem_ends_many _ _ before]
            refine exists_congr fun c => and_congr_right fun _ => ?_
            exact ih
          · constructor
            · rintro ⟨_, rfl, w, z, rfl, h⟩
              exact ⟨w, z, rfl, h⟩
            · rintro ⟨w, z, rfl, h⟩
              exact ⟨_, rfl, w, z, rfl, h⟩

section Match

variable {template : String} {id : List Char} {l l' : List Char} {ls : List (List Char)}

theorem slashless_of_unreserved {c : Char} (h : unreserved c = true) : slashless c = true := by
  rw [slashless, decide_eq_true_eq]
  rintro rfl
  revert h
  decide

/-- **A filled path gives the id back exactly where no longer text fits, too.** -/
theorem matchPath_fillId (hhead : template.toList.head? = some '/') (hid : SafeId id)
    (hp : pieces (normalizePath template.toList) = l :: l' :: ls) :
    matchPath template (normalizePath (fillId id template.toList)) =
        .ok (some (String.ofList id)) ↔
      ¬ Holes.Strays slashless AtPathEnd id (l' :: ls) := by
  have hpath : normalizePath (fillId id template.toList) =
      l ++ (id ++ id.intercalate (l' :: ls)) := by
    rw [normalizePath_fillId hid.ne_nil hid.unreserved hhead, fillId, hp,
      List.intercalate_cons_cons, List.append_assoc]
  have hall : ∀ c ∈ id, slashless c = true := fun c hc =>
    slashless_of_unreserved (hid.unreserved c hc)
  have hfits : Holes.Fits slashless AtPathEnd (l' :: ls) (id.intercalate (l' :: ls)) :=
    Holes.fits_intercalate hid.ne_nil hall List.mem_cons_self
  simp only [matchPath, hp, Except.ok.injEq, Option.map_eq_some_iff, String.ofList_inj,
    exists_eq_right]
  rw [hpath, idGroup, Pattern.captured_eq_some fun _ _ => ends_piecesPattern]
  constructor
  · rintro htakes ⟨s, y, hs, hsl, heq, hy⟩
    have hlen := htakes.longest (id ++ s) y (by rw [heq, List.append_assoc]) (by
      intro c hc
      exact (List.mem_append.mp hc).elim (hall c) (hsl c)) hy
    rw [List.length_append] at hlen
    exact hs (List.length_eq_zero_iff.mp (by omega))
  · intro hstray
    refine ⟨hid.ne_nil, hall, ⟨_, rfl, hfits⟩, ?_⟩
    intro w y heq hw hy
    by_contra hlonger
    rcases List.prefix_or_prefix_of_prefix (List.prefix_append id _)
      (heq ▸ List.prefix_append w y) with hpre | hpre
    · obtain ⟨s, rfl⟩ := hpre
      rw [List.append_assoc, List.append_cancel_left_eq] at heq
      refine hstray ⟨s, y, ?_, fun c hc => hw c (List.mem_append_right _ hc), heq, hy⟩
      rintro rfl
      simp at hlonger
    · exact hlonger hpre.length_le

/-! #### Where the first place is pinned -/

/-- No id can be rendered: a piece has a brace or two dots. -/
def Unrenderable (template : String) : Prop :=
  ∃ l ∈ pieces template.toList, '{' ∈ l ∨ '}' ∈ l ∨ ['.', '.'] <:+: l

theorem infix_intercalate {v l : List Char} {ls : List (List Char)} (h : l ∈ ls) :
    l <:+: v.intercalate ls := by
  induction ls with
  | nil => cases h
  | cons l' ls ih =>
      rcases List.mem_cons.mp h with rfl | h
      · exact Holes.prefix_intercalate.isInfix
      · cases ls with
        | nil => cases h
        | cons l'' ls =>
            rw [List.intercalate_cons_cons]
            exact (ih h).trans (List.suffix_append _ _).isInfix

theorem dots_cons {c : Char} {cs : List Char} : ['.', '.'] <:+: c :: cs ↔
    (c = '.' ∧ cs.head? = some '.') ∨ ['.', '.'] <:+: cs := by
  rw [List.infix_cons_iff]
  refine or_congr_left ?_
  cases cs with
  | nil => simp
  | cons d cs => simp [eq_comm]

theorem noDots_append {a b : List Char} (ha : ¬ ['.', '.'] <:+: a) (hb : ¬ ['.', '.'] <:+: b)
    (h : a.getLast? ≠ some '.' ∨ b.head? ≠ some '.') : ¬ ['.', '.'] <:+: a ++ b := by
  induction a with
  | nil => exact hb
  | cons c cs ih =>
      rw [dots_cons, not_or] at ha
      rw [List.cons_append, dots_cons, not_or]
      cases cs with
      | nil =>
          refine ⟨fun hc => ?_, hb⟩
          rcases h with h | h
          · exact h (by simp [hc.1])
          · exact h hc.2
      | cons d cs => exact ⟨ha.1, ih ha.2 (by simpa using h)⟩

/-- Pieces without two dots, around an id that neither starts nor ends with one. -/
theorem noDots_intercalate {v : List Char} {ls : List (List Char)} (hne : v ≠ [])
    (hv : ¬ ['.', '.'] <:+: v) (hfirst : v.head? ≠ some '.') (hlast : v.getLast? ≠ some '.')
    (hls : ∀ l ∈ ls, ¬ ['.', '.'] <:+: l) : ¬ ['.', '.'] <:+: v.intercalate ls := by
  induction ls with
  | nil => simp
  | cons l ls ih =>
      have hl := hls l List.mem_cons_self
      cases ls with
      | nil => simpa using hl
      | cons l' ls =>
          have hrest := ih fun l hl => hls l (List.mem_cons_of_mem _ hl)
          rw [List.intercalate_cons_cons]
          refine noDots_append (noDots_append hl hv (.inr hfirst)) hrest (.inl ?_)
          rwa [List.getLast?_append_of_ne_nil _ hne]

theorem mem_intercalate {v : List Char} {ls : List (List Char)} {c : Char}
    (h : c ∈ v.intercalate ls) : c ∈ v ∨ ∃ l ∈ ls, c ∈ l := by
  induction ls with
  | nil => simp at h
  | cons l ls ih =>
      cases ls with
      | nil => exact .inr ⟨l, List.mem_cons_self, by simpa using h⟩
      | cons l' ls =>
          rw [List.intercalate_cons_cons, List.mem_append, List.mem_append] at h
          rcases h with (h | h) | h
          · exact .inr ⟨l, List.mem_cons_self, h⟩
          · exact .inl h
          · exact (ih h).imp_right fun ⟨l, hl, hc⟩ => ⟨l, List.mem_cons_of_mem _ hl, hc⟩

/-- An id that neither starts nor ends with a dot is let through wherever any is. -/
theorem clean_fillId (h : ¬ Unrenderable template) (hid : SafeId id)
    (hfirst : id.head? ≠ some '.') (hlast : id.getLast? ≠ some '.') :
    Clean (fillId id template.toList) := by
  have hbrace : ∀ c, (c = '{' ∨ c = '}') → c ∉ fillId id template.toList := by
    intro c hc hmem
    rcases mem_intercalate hmem with hmem | ⟨l, hl, hmem⟩
    · have hun := hid.unreserved c hmem
      rcases hc with rfl | rfl <;> revert hun <;> decide
    · refine h ⟨l, hl, ?_⟩
      rcases hc with rfl | rfl
      · exact .inl hmem
      · exact .inr (.inl hmem)
  exact ⟨hbrace _ (.inl rfl), hbrace _ (.inr rfl),
    noDots_intercalate hid.ne_nil hid.no_dots hfirst hlast fun l hl hd =>
      h ⟨l, hl, .inr (.inr hd)⟩⟩

theorem not_clean_of_unrenderable (h : Unrenderable template) (id : List Char) :
    ¬ Clean (fillId id template.toList) := by
  obtain ⟨l, hl, hbad⟩ := h
  have hpart : l <:+: fillId id template.toList := infix_intercalate hl
  rintro ⟨hopen, hclose, hdots⟩
  rcases hbad with h | h | h
  · exact hopen (hpart.subset h)
  · exact hclose (hpart.subset h)
  · exact hdots (h.trans hpart)

theorem normalizePath_prefix {path : List Char} (h : path.head? = some '/') :
    normalizePath path <+: path := by
  rw [normalizePath_eq h]
  split
  · cases path with
    | nil => cases h
    | cons c rest =>
        rw [List.head?_cons, Option.some.injEq] at h
        exact ⟨rest, by rw [h]; rfl⟩
  · exact (List.rdropWhile_prefix _ _).trans
      ((List.rdropWhile_prefix _ _).trans (List.takeWhile_prefix _))

/-- An id between two letters: the piece itself, where it is short enough and of such characters. -/
theorem safeId_surround (hl : ∀ c ∈ l, unreserved c = true) (hdots : ¬ ['.', '.'] <:+: l)
    (hlen : l.length < 255) : SafeId ('a' :: (l ++ ['a'])) where
  ne_nil := List.cons_ne_nil _ _
  no_dots := by
    rw [dots_cons]
    rintro (⟨h, -⟩ | h)
    · exact absurd h (by decide)
    · exact noDots_append hdots (by decide) (.inr (by decide)) h
  unreserved := by
    intro c hc
    simp only [List.mem_cons, List.mem_append, List.not_mem_nil, or_false] at hc
    rcases hc with rfl | hc | rfl
    · decide
    · exact hl c hc
    · decide
  length_le := by simp; omega

/-- No id that is rendered strays, for the pieces behind the first place. -/
def Unambiguous (template : String) (ls : List (List Char)) : Prop :=
  ∀ id, SafeId id → Clean (fillId id template.toList) →
    ¬ Holes.Strays slashless AtPathEnd id ls

theorem unambiguous_iff (hhead : template.toList.head? = some '/')
    (hp : pieces (normalizePath template.toList) = l :: l' :: ls) :
    Unambiguous template (l' :: ls) ↔ ls = [] ∨ (∃ c ∈ l', unreserved c = false) ∨
      Unrenderable template ∨ (255 ≤ l'.length ∧ Unambiguous template (l' :: ls)) := by
  constructor
  · intro h
    by_contra hnot
    simp only [not_or, not_exists, not_and] at hnot
    obtain ⟨hls, hun, hrender, hlong⟩ := hnot
    have hshort : l'.length < 255 := not_le.mp fun hlen => hlong hlen h
    have hl : ∀ c ∈ l', unreserved c = true := fun c hc => by simpa using hun c hc
    obtain ⟨l'', ls, rfl⟩ := List.exists_cons_of_ne_nil hls
    -- the piece is part of what is rendered for the id `a`, so it has no two dots
    have hsafe : SafeId ['a'] :=
      ⟨by simp, by decide, fun c hc => List.mem_singleton.mp hc ▸ by decide, by decide⟩
    have hclean := clean_fillId hrender hsafe (by decide) (by decide)
    have hpart : l' <:+: fillId ['a'] template.toList := by
      have hpre := normalizePath_prefix (@head_fillId ['a'] _ hhead)
      rw [normalizePath_fillId (by simp) hsafe.unreserved hhead, fillId, hp] at hpre
      exact (infix_intercalate (by simp)).trans hpre.isInfix
    have hid := safeId_surround hl (fun hd => hclean.no_dots (hd.trans hpart)) hshort
    have hlast : ('a' :: (l' ++ ['a'])).getLast? = some 'a' := by
      rw [← List.cons_append, List.getLast?_append]
      rfl
    exact h _ hid (clean_fillId hrender hid (by simp) (by simp [hlast]))
      (Holes.strays_surround (by decide) (fun c hc => slashless_of_unreserved (hl c hc))
        List.mem_cons_self _ _)
  · rintro (rfl | hres | hrender | ⟨-, h⟩)
    · rintro id hid - ⟨s, y, hs, -, heq, hy⟩
      have hlen := Holes.length_le_of_last (v := id) (w := id ++ s)
        (by rw [List.append_assoc, ← heq, List.intercalate_singleton]) hy
      rw [List.length_append] at hlen
      exact hs (List.length_eq_zero_iff.mp (by omega))
    · rintro id hid - ⟨s, y, hs, -, heq, hy⟩
      have hsame := Holes.eq_of_reserved (q := fun c => !unreserved c) (v := id) (w := id ++ s)
        (fun c hc => by simp [hid.unreserved c hc])
        (hres.imp fun c hc => ⟨hc.1, by simp [hc.2]⟩) (by rw [List.append_assoc, ← heq]) hy
      exact hs (List.self_eq_append_right.mp hsame.symm)
    · exact fun id _ hc => absurd hc (not_clean_of_unrenderable hrender id)
    · exact h

/-- `{id}` stands in the path, before its query. -/
def Placed (template : String) : Prop := 1 < (pieces (normalizePath template.toList)).length

/-- The id is told from a path it was rendered in. -/
def Told (template : String) : Prop :=
  ∃ l l' ls, pieces (normalizePath template.toList) = l :: l' :: ls ∧
    (ls = [] ∨ (∃ c ∈ l', unreserved c = false) ∨ Unrenderable template ∨
      (255 ≤ l'.length ∧ Unambiguous template (l' :: ls)))

theorem Placed.pieces (h : Placed template) :
    ∃ l l' ls, pieces (normalizePath template.toList) = l :: l' :: ls := by
  unfold Placed at h
  match hp : AsyncGateway.pieces (normalizePath template.toList) with
  | [] => simp [hp] at h
  | [l] => simp [hp] at h
  | l :: l' :: ls => exact ⟨l, l', ls, rfl⟩

theorem Told.placed (h : Told template) : Placed template := by
  obtain ⟨l, l', ls, hp, -⟩ := h
  simp [Placed, hp]

theorem told_iff (hhead : template.toList.head? = some '/')
    (hplace : ResolvedTemplate.hasIdPlaceholder template = true) (hp : Placed template) :
    Told template ↔ ∀ id path, renderPath template id = .ok path →
      matchPath template (normalizePath path.toList) = .ok (some id) := by
  obtain ⟨l, l', ls, hp⟩ := hp.pieces
  have htold : Told template ↔ Unambiguous template (l' :: ls) := by
    rw [unambiguous_iff hhead hp]
    constructor
    · rintro ⟨k, k', ks, hk, h⟩
      rw [hp] at hk
      cases hk
      exact h
    · exact fun h => ⟨l, l', ls, hp, h⟩
  rw [htold]
  constructor
  · intro h id path hr
    obtain ⟨hid, hclean, rfl⟩ := (renderPath_eq_ok hplace).mp hr
    rw [String.toList_ofList, (matchPath_fillId hhead hid hp).mpr (h _ hid hclean),
      String.ofList_toList]
  · intro h id hid hclean
    refine (matchPath_fillId hhead hid hp).mp ?_
    have hr : renderPath template (String.ofList id) =
        .ok (String.ofList (fillId id template.toList)) := by
      rw [renderPath_eq_ok hplace, String.toList_ofList]
      exact ⟨hid, hclean, rfl⟩
    simpa using h _ _ hr

/-! #### A path without a place -/

theorem matchPath_ok (h : Placed template) (path : List Char) :
    ∃ m, matchPath template path = .ok m := by
  obtain ⟨l, l', ls, hp⟩ := h.pieces
  rw [matchPath, hp]
  exact ⟨_, rfl⟩

theorem eq_of_pieces {cs : List Char} (h : pieces cs = [l]) : cs = l := by
  induction cs using place_induction generalizing l with
  | nil => simpa [pieces] using h
  | place cs ih =>
      rw [pieces_place, List.cons.injEq] at h
      exact absurd h.2 (pieces_ne_nil cs)
  | char c cs hc ih =>
      rw [pieces_char hc] at h
      obtain ⟨k, ks, hk⟩ := List.exists_cons_of_ne_nil (pieces_ne_nil cs)
      rw [hk] at h
      obtain ⟨rfl, rfl⟩ := List.cons.inj h
      rw [ih hk]

theorem matchPath_raises (h : ¬ Placed template) {z : List Char} (hz : AtPathEnd z) :
    matchPath template (normalizePath template.toList ++ z) =
      .error (.infrastructure "IndexError") := by
  have hp : pieces (normalizePath template.toList) = [normalizePath template.toList] := by
    obtain ⟨k, ks, hk⟩ := List.exists_cons_of_ne_nil
      (pieces_ne_nil (normalizePath template.toList))
    cases ks with
    | nil => rw [hk, eq_of_pieces hk]
    | cons k' ks => exact absurd (by simp [Placed, hk]) h
  have hfits : (piecesPattern [normalizePath template.toList]).ends
      (none, normalizePath template.toList ++ z) ≠ [] := ends_piecesPattern.mpr ⟨z, rfl, hz⟩
  rw [matchPath, hp]
  exact if_neg hfits

theorem head_normalizePath {path : List Char} (h : path.head? = some '/') :
    (normalizePath path).head? = some '/' := by
  obtain ⟨rest, hrest⟩ := normalizePath_prefix h
  cases hn : normalizePath path with
  | nil =>
      rw [normalizePath_eq h] at hn
      split at hn
      · cases hn
      · contradiction
  | cons c cs =>
      rw [hn] at hrest
      rwa [← hrest] at h

theorem no_query_normalizePath {path : List Char} (h : path.head? = some '/') :
    ∀ c ∈ normalizePath path, c ≠ '?' := by
  intro c hc
  rw [normalizePath_eq h] at hc
  split at hc
  · rw [List.mem_singleton.mp hc]
    decide
  · have hmem := (List.rdropWhile_prefix _ _).subset ((List.rdropWhile_prefix _ _).subset hc)
    simpa using List.mem_takeWhile_imp hmem

/-- A newline and a slash behind a path leave the newline, which `$` looks past. -/
theorem normalizePath_newline {path : List Char} (h : path.head? = some '/') :
    normalizePath (normalizePath path ++ ['\n', '/']) = normalizePath path ++ ['\n'] := by
  have hcut : (normalizePath path ++ ['\n', '/']).takeWhile (· ≠ '?') =
      (normalizePath path ++ ['\n']) ++ ['/'] := by
    rw [List.takeWhile_eq_self_iff.mpr, List.append_assoc]
    · rfl
    · intro c hc
      rcases List.mem_append.mp hc with hc | hc
      · simpa using no_query_normalizePath h c hc
      · exact List.all_eq_true.mp (by decide : ['\n', '/'].all (· ≠ '?') = true) c hc
  have hspace : ((normalizePath path ++ ['\n']) ++ ['/']).rdropWhile Text.isSpace =
      (normalizePath path ++ ['\n']) ++ ['/'] := List.rdropWhile_concat_neg _ _ _ (by decide)
  have hslash : ((normalizePath path ++ ['\n']) ++ ['/']).rdropWhile (· = '/') =
      normalizePath path ++ ['\n'] := by
    rw [List.rdropWhile_concat_pos _ _ _ (by decide), List.rdropWhile_concat_neg _ _ _ (by decide)]
  have htrim : trimPath (normalizePath path ++ ['\n', '/']) = normalizePath path ++ ['\n'] := by
    rw [trimPath, hcut, hspace, hslash]
  rw [normalizePath_eq, htrim, if_neg (by simp)]
  rw [List.head?_append, head_normalizePath h]
  rfl

end Match

/-! ### The routes of a template -/

/-- The routes and the rendered paths of a template agree. -/
structure RoundTrips (t : ResolvedTemplate) : Prop where
  create : matchRoute t t.createPath t.createMethod = .ok (some ⟨.create, none⟩)
  query : ∀ id path, renderPath t.getPathTemplate id = .ok path →
    matchRoute t path t.getMethod = .ok (some ⟨.query, some id⟩)
  cancel : t.capabilities.cancel = true → ∀ id path,
    renderPath t.cancelPathTemplate id = .ok path →
      matchRoute t path t.cancelMethod = .ok (some ⟨.cancel, some id⟩)
  total : ∀ path method, ∃ m, matchRoute t path method = .ok m

/-- No id that is rendered makes the cancel path the one of a create. -/
def CancelApart (t : ResolvedTemplate) : Prop :=
  t.cancelMethod = t.createMethod → ∀ id, SafeId id →
    Clean (fillId id t.cancelPathTemplate.toList) →
      fillId id (normalizePath t.cancelPathTemplate.toList) ≠ normalizePath t.createPath.toList

/-- What `validate` would have to ask of the two paths. -/
structure Tellable (t : ResolvedTemplate) : Prop where
  get_told : Told t.getPathTemplate
  cancel_placed : Placed t.cancelPathTemplate
  cancel_told : t.capabilities.cancel = true → Told t.cancelPathTemplate
  apart : t.capabilities.cancel = true → CancelApart t

theorem toUpper_eq {s : String} (h : s.toList.map Char.toUpper = s.toList) : s.toUpper = s := by
  have hmap : s.toUpper = String.ofList (s.toList.map Char.toUpper) := String.map_eq_internal
  rw [hmap, h, String.ofList_toList]

namespace ValidatedTemplate

variable (t : ValidatedTemplate)

theorem toUpper_createMethod : t.createMethod.toUpper = t.createMethod := by
  have h := t.createMethod_mem
  simp only [List.mem_cons, List.not_mem_nil, or_false] at h
  rcases h with h | h
  · rw [h, toUpper_eq (by decide)]
  · rw [h, toUpper_eq (by decide)]

theorem toUpper_cancelMethod : t.cancelMethod.toUpper = t.cancelMethod := by
  have h := t.cancelMethod_mem
  simp only [List.mem_cons, List.not_mem_nil, or_false] at h
  rcases h with h | h
  · rw [h, toUpper_eq (by decide)]
  · rw [h, toUpper_eq (by decide)]

theorem toUpper_getMethod : t.getMethod.toUpper = t.getMethod := by
  rw [t.getMethod_eq, toUpper_eq (by decide)]

theorem getMethod_ne_create : t.getMethod ≠ t.createMethod := by
  intro h
  have hmem := h ▸ t.createMethod_mem
  rw [t.getMethod_eq] at hmem
  revert hmem
  decide

theorem getMethod_ne_cancel : t.getMethod ≠ t.cancelMethod := by
  intro h
  have hmem := h ▸ t.cancelMethod_mem
  rw [t.getMethod_eq] at hmem
  revert hmem
  decide

theorem matchRoute_get (path : String) : matchRoute t.toResolvedTemplate path t.getMethod =
    (matchPath t.getPathTemplate (normalizePath path.toList)).map
      (Option.map fun id => ⟨.query, some id⟩) := by
  simp only [matchRoute, t.toUpper_createMethod, t.toUpper_cancelMethod, t.toUpper_getMethod,
    t.getMethod_ne_create, t.getMethod_ne_cancel, false_and, if_false, if_true]
  cases matchPath t.getPathTemplate (normalizePath path.toList) with
  | error x => rfl
  | ok m => rfl

theorem matchRoute_cancel {path : String} (h : ¬ (t.cancelMethod = t.createMethod ∧
      normalizePath path.toList = normalizePath t.createPath.toList)) :
    matchRoute t.toResolvedTemplate path t.cancelMethod =
      (matchPath t.cancelPathTemplate (normalizePath path.toList)).map
        (Option.map fun id => ⟨.cancel, some id⟩) := by
  simp only [matchRoute, t.toUpper_createMethod, t.toUpper_cancelMethod, t.toUpper_getMethod,
    t.getMethod_ne_cancel.symm, if_neg h, if_false, if_true]
  cases matchPath t.cancelPathTemplate (normalizePath path.toList) with
  | error x => rfl
  | ok m => cases m with
    | none => rfl
    | some id => rfl

theorem matchRoute_create : matchRoute t.toResolvedTemplate t.createPath t.createMethod =
    .ok (some ⟨.create, none⟩) := by
  simp [matchRoute]

/-! #### No comparison raises -/

theorem matchRoute_ok (hget : Placed t.getPathTemplate) (hcancel : Placed t.cancelPathTemplate)
    (path method : String) : ∃ m, matchRoute t.toResolvedTemplate path method = .ok m := by
  obtain ⟨queried, hq⟩ := matchPath_ok hget (normalizePath path.toList)
  obtain ⟨cancelled, hc⟩ := matchPath_ok hcancel (normalizePath path.toList)
  simp only [matchRoute, hq, hc]
  split_ifs
  · exact ⟨_, rfl⟩
  · cases cancelled with
    | none => exact ⟨_, rfl⟩
    | some id => exact ⟨_, rfl⟩
  · cases cancelled with
    | none => exact ⟨_, rfl⟩
    | some id => exact ⟨_, rfl⟩
  · exact ⟨_, rfl⟩
  · exact ⟨_, rfl⟩

section Total

variable {t} (total : ∀ path method, ∃ m, matchRoute t.toResolvedTemplate path method = .ok m)
include total

theorem placed_get : Placed t.getPathTemplate := by
  by_contra hnot
  obtain ⟨m, hm⟩ := total t.getPathTemplate t.getMethod
  have hraise := matchPath_raises hnot (z := []) (.head _)
  rw [List.append_nil] at hraise
  rw [matchRoute_get, hraise] at hm
  cases hm

theorem placed_cancel : Placed t.cancelPathTemplate := by
  by_contra hnot
  by_cases hsame : t.cancelMethod = t.createMethod ∧
      normalizePath t.cancelPathTemplate.toList = normalizePath t.createPath.toList
  · -- the path itself is told as the one of a create: with a newline behind it, it is not
    obtain ⟨m, hm⟩ := total
      (String.ofList (normalizePath t.cancelPathTemplate.toList ++ ['\n', '/'])) t.cancelMethod
    have hline := normalizePath_newline t.head_cancelPath
    have hraise := matchPath_raises hnot (z := ['\n']) (.tail _ (.tail _ (.head _)))
    rw [matchRoute_cancel, String.toList_ofList, hline, hraise] at hm
    · cases hm
    · rw [String.toList_ofList, hline, ← hsame.2]
      simp
  · obtain ⟨m, hm⟩ := total t.cancelPathTemplate t.cancelMethod
    have hraise := matchPath_raises hnot (z := []) (.head _)
    rw [List.append_nil] at hraise
    rw [matchRoute_cancel t hsame, hraise] at hm
    cases hm

end Total

/-! #### What is rendered is told -/

theorem query_iff : (∀ id path, renderPath t.getPathTemplate id = .ok path →
      matchRoute t.toResolvedTemplate path t.getMethod = .ok (some ⟨.query, some id⟩)) ↔
    ∀ id path, renderPath t.getPathTemplate id = .ok path →
      matchPath t.getPathTemplate (normalizePath path.toList) = .ok (some id) := by
  refine forall₃_congr fun id path hr => ?_
  rw [matchRoute_get]
  cases matchPath t.getPathTemplate (normalizePath path.toList) with
  | error x => simp [Except.map]
  | ok m => simp [Except.map]

theorem cancel_iff : (∀ id path, renderPath t.cancelPathTemplate id = .ok path →
      matchRoute t.toResolvedTemplate path t.cancelMethod = .ok (some ⟨.cancel, some id⟩)) ↔
    (∀ id path, renderPath t.cancelPathTemplate id = .ok path →
      matchPath t.cancelPathTemplate (normalizePath path.toList) = .ok (some id)) ∧
      (t.cancelMethod = t.createMethod → ∀ id path,
        renderPath t.cancelPathTemplate id = .ok path →
          normalizePath path.toList ≠ normalizePath t.createPath.toList) := by
  have hone : ∀ path : String, ¬ (t.cancelMethod = t.createMethod ∧
      normalizePath path.toList = normalizePath t.createPath.toList) → ∀ id,
      (matchRoute t.toResolvedTemplate path t.cancelMethod = .ok (some ⟨.cancel, some id⟩) ↔
        matchPath t.cancelPathTemplate (normalizePath path.toList) = .ok (some id)) := by
    intro path hnot id
    rw [matchRoute_cancel t hnot]
    cases matchPath t.cancelPathTemplate (normalizePath path.toList) with
    | error x => simp [Except.map]
    | ok m => simp [Except.map]
  constructor
  · intro h
    have hapart : ∀ id path, renderPath t.cancelPathTemplate id = .ok path →
        ¬ (t.cancelMethod = t.createMethod ∧
          normalizePath path.toList = normalizePath t.createPath.toList) := by
      rintro id path hr ⟨hmethod, hpath⟩
      have hcreate : matchRoute t.toResolvedTemplate path t.cancelMethod =
          .ok (some ⟨.create, none⟩) := by simp [matchRoute, hmethod, hpath]
      rw [h id path hr] at hcreate
      cases hcreate
    exact ⟨fun id path hr => (hone path (hapart id path hr) id).mp (h id path hr),
      fun hmethod id path hr hpath => hapart id path hr ⟨hmethod, hpath⟩⟩
  · rintro ⟨h, hapart⟩ id path hr
    exact (hone path (fun hsame => hapart hsame.1 id path hr hsame.2) id).mpr (h id path hr)

theorem apart_iff (hc : t.capabilities.cancel = true) :
    CancelApart t.toResolvedTemplate ↔ (t.cancelMethod = t.createMethod → ∀ id path,
      renderPath t.cancelPathTemplate id = .ok path →
        normalizePath path.toList ≠ normalizePath t.createPath.toList) := by
  refine forall_congr' fun _ => ?_
  constructor
  · intro h id path hr
    obtain ⟨hid, hclean, rfl⟩ := (renderPath_eq_ok (t.hasIdPlaceholder_cancel hc)).mp hr
    rw [String.toList_ofList, normalizePath_fillId hid.ne_nil hid.unreserved t.head_cancelPath]
    exact h _ hid hclean
  · intro h id hid hclean
    have hr : renderPath t.cancelPathTemplate (String.ofList id) =
        .ok (String.ofList (fillId id t.cancelPathTemplate.toList)) := by
      rw [renderPath_eq_ok (t.hasIdPlaceholder_cancel hc), String.toList_ofList]
      exact ⟨hid, hclean, rfl⟩
    have hne := h _ _ hr
    rwa [String.toList_ofList, normalizePath_fillId hid.ne_nil hid.unreserved t.head_cancelPath]
      at hne

/-- **Which accepted templates give back what was put into their paths.** -/
theorem roundTrips_iff : RoundTrips t.toResolvedTemplate ↔ Tellable t.toResolvedTemplate := by
  have hget := fun h => told_iff t.head_getPath t.hasIdPlaceholder_get h
  have hcancel := fun hc h => told_iff t.head_cancelPath (t.hasIdPlaceholder_cancel hc) h
  constructor
  · rintro ⟨-, query, cancel, total⟩
    have hplaced := placed_cancel total
    exact {
      get_told := (hget (placed_get total)).mpr (t.query_iff.mp query)
      cancel_placed := hplaced
      cancel_told := fun hc => (hcancel hc hplaced).mpr (t.cancel_iff.mp (cancel hc)).1
      apart := fun hc => (t.apart_iff hc).mpr (t.cancel_iff.mp (cancel hc)).2 }
  · rintro ⟨hg, hplaced, hc, hapart⟩
    exact {
      create := t.matchRoute_create
      query := t.query_iff.mpr ((hget hg.placed).mp hg)
      cancel := fun h => t.cancel_iff.mpr
        ⟨(hcancel h hplaced).mp (hc h), (t.apart_iff h).mp (hapart h)⟩
      total := t.matchRoute_ok hg.placed hplaced }

end ValidatedTemplate

/-- A template that gives the id of a query behind the path, which `validate` accepts. -/
def queryTemplate : ValidatedTemplate where
  aliasName := "video"
  baseUrl := "https://upstream"
  createPath := "/tasks"
  getPathTemplate := "/tasks?id={id}"
  cancelPathTemplate := "/tasks/{id}"
  resultLocation := "$.url"
  accepted := by decide +kernel
  createMethod_mem := by decide
  getMethod_eq := rfl
  cancelMethod_mem := by decide
  baseUrl_shape := ⟨"https://upstream", by decide +kernel⟩
  createPath_shape := ⟨"/tasks", by decide +kernel⟩
  getPath_shape := .inl ⟨"/tasks?id={id}", by decide +kernel⟩
  cancelPath_shape := .inl ⟨"/tasks/{id}", by decide +kernel⟩

/-- The pattern of a path whose place is behind the query has no group to ask for. -/
theorem queryTemplate_raises : ¬ ∀ t : ValidatedTemplate, RoundTrips t.toResolvedTemplate := by
  intro h
  obtain ⟨m, hm⟩ := (h queryTemplate).total "/tasks" queryTemplate.getMethod
  rw [queryTemplate.matchRoute_get] at hm
  have hraise : matchPath queryTemplate.getPathTemplate (normalizePath "/tasks".toList) =
      .error (.infrastructure "IndexError") := by rfl
  rw [hraise] at hm
  cases hm

end AsyncGateway
