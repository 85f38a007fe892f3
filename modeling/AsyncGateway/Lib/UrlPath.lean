import AsyncGateway.Lib.UrlParts
import Mathlib.Data.List.Basic
import Mathlib.Data.List.Induction

/-!
# Library — the path of a joined URL

What `urljoin` of Python makes of the paths of a base and a reference: the reference is put behind
the directory of the base, where empty segments fall out and dot segments are resolved.
`joinPath_spec` says when the path that comes of it is the one that was put together: where neither
was there.  Otherwise it is shorter.
-/

namespace Url

/-! ### Paths -/

/-- The segments of the base that a reference is put behind. -/
def directory (path : List Char) : List (List Char) :=
  let parts := path.splitOn '/'
  if parts.getLast? = some [] then parts else parts.dropLast

/-- `segments[1:-1] = filter(None, segments[1:-1])`. -/
def compact : List (List Char) → List (List Char)
  | [] => []
  | seg :: segs => seg :: (segs.dropLast.filter (· ≠ []) ++ segs.getLast?.toList)

/-- The loop that resolves the dot segments. -/
def removeDots (resolved : List (List Char)) : List (List Char) → List (List Char)
  | [] => resolved
  | seg :: segs =>
      if seg = ['.', '.'] then removeDots resolved.dropLast segs
      else if seg = ['.'] then removeDots resolved segs
      else removeDots (resolved ++ [seg]) segs

def isDots (seg : List Char) : Bool := seg = ['.'] || seg = ['.', '.']

/-- The path of the segments. -/
def resolve (segs : List (List Char)) : List Char :=
  let resolved := removeDots [] segs
  let resolved := if segs.getLast?.any isDots then resolved ++ [[]] else resolved
  let path := ['/'].intercalate resolved
  if path = [] then ['/'] else path

/-- The path of a reference behind the path of the base. -/
def joinPath (bpath path : List Char) : List Char :=
  if path.head? = some '/' then resolve (path.splitOn '/')
  else resolve (compact (directory bpath ++ path.splitOn '/'))
/-! ### The size of a path -/

/-- The characters of the segments, a slash with each. -/
def size : List (List Char) → ℕ
  | [] => 0
  | seg :: segs => seg.length + 1 + size segs

variable {segs segs' resolved : List (List Char)}

@[simp] theorem size_append : size (segs ++ segs') = size segs + size segs' := by
  induction segs with
  | nil => simp [size]
  | cons seg segs ih => simp [size, ih, Nat.add_assoc]

theorem size_le_of_sublist (h : segs.Sublist segs') : size segs ≤ size segs' := by
  induction h with
  | slnil => exact Nat.le_refl _
  | cons seg _ ih => simp only [size]; omega
  | cons_cons seg _ ih => simp only [size]; omega

theorem length_intercalate (segs : List (List Char)) (h : segs ≠ []) :
    (['/'].intercalate segs).length + 1 = size segs := by
  induction segs with
  | nil => exact absurd rfl h
  | cons seg segs ih =>
      cases segs with
      | nil => simp [size]
      | cons seg' segs =>
          rw [List.intercalate_cons_cons, size, ← ih (List.cons_ne_nil _ _)]
          simp
          omega

theorem size_splitOn (path : List Char) : size (path.splitOn '/') = path.length + 1 := by
  rw [← length_intercalate _ (List.splitOn_ne_nil _ _), List.intercalate_splitOn]

/-- What the dot segments take away. -/
theorem size_removeDots (resolved segs : List (List Char)) :
    size (removeDots resolved segs) + size (segs.filter isDots) ≤ size resolved + size segs := by
  induction segs generalizing resolved with
  | nil => simp [removeDots, size]
  | cons seg segs ih =>
      unfold removeDots
      split
      · rename_i hdots
        have hle := size_le_of_sublist (List.dropLast_sublist resolved)
        have h := ih resolved.dropLast
        rw [List.filter_cons_of_pos (by simp [isDots, hdots])]
        simp only [size]
        omega
      · rename_i hne
        split
        · rename_i hdot
          rw [List.filter_cons_of_pos (by simp [isDots, hdot])]
          have h := ih resolved
          simp only [size]
          omega
        · rename_i hne'
          rw [List.filter_cons_of_neg (by simp [isDots, hne, hne'])]
          have h := ih (resolved ++ [seg])
          simp only [size_append, size] at h ⊢
          omega

/-- Without a segment that goes up, those that stay fall out. -/
theorem removeDots_eq (h : ['.', '.'] ∉ segs) :
    removeDots resolved segs = resolved ++ segs.filter (! isDots ·) := by
  induction segs generalizing resolved with
  | nil => simp [removeDots]
  | cons seg segs ih =>
      obtain ⟨hseg, hsegs⟩ := not_or.mp (List.mem_cons.not.mp h)
      unfold removeDots
      rw [if_neg (Ne.symm hseg)]
      split
      · rename_i hdot
        rw [ih hsegs, List.filter_cons_of_neg (by simp [isDots, hdot])]
      · rename_i hdot
        rw [ih hsegs, List.filter_cons_of_pos (by simp [isDots, hdot, Ne.symm hseg])]
        simp

theorem length_rooted_le (path : List Char) : (rooted path).length ≤ path.length + 1 := by
  unfold rooted
  split <;> simp

theorem resolve_of (h : (if segs.getLast?.any isDots then removeDots [] segs ++ [[]]
    else removeDots [] segs) = resolved) : resolve segs =
      if ['/'].intercalate resolved = [] then ['/'] else ['/'].intercalate resolved := by
  unfold resolve
  simp only [h]

/-- Where there are no dot segments, the segments are put together again. -/
theorem resolve_eq (hdots : ∀ seg ∈ segs, isDots seg = false)
    (hlen : 2 ≤ segs.length) : resolve segs = ['/'].intercalate segs := by
  have hlast : segs.getLast?.any isDots = false := by
    cases hget : segs.getLast? with
    | none => rfl
    | some seg => exact hdots seg (List.mem_of_getLast? hget)
  have hfilter : segs.filter (! isDots ·) = segs :=
    List.filter_eq_self.mpr fun seg h => by simp [hdots seg h]
  have hup : ['.', '.'] ∉ segs := fun h => by simpa [isDots] using hdots _ h
  have hresolved : (if segs.getLast?.any isDots then removeDots [] segs ++ [[]]
      else removeDots [] segs) = segs := by
    rw [hlast, removeDots_eq hup, hfilter]
    rfl
  rw [resolve_of hresolved]
  split
  · rename_i hnil
    have hsize := length_intercalate segs (by rintro rfl; simp at hlen)
    rw [hnil] at hsize
    obtain ⟨seg, seg', segs, rfl⟩ : ∃ a b l, segs = a :: b :: l := by
      match segs, hlen with
      | a :: b :: l, _ => exact ⟨a, b, l, rfl⟩
    simp only [List.length_nil, size] at hsize
    omega
  · rfl

theorem length_resolve_le (segs : List (List Char)) : (resolve segs).length + 1 ≤
    max 2 (size (removeDots [] segs) + if segs.getLast?.any isDots then 1 else 0) := by
  generalize hresolved : (if segs.getLast?.any isDots then removeDots [] segs ++ [[]]
    else removeDots [] segs) = resolved
  have hsize : size resolved =
      size (removeDots [] segs) + if segs.getLast?.any isDots then 1 else 0 := by
    rw [← hresolved]
    split <;> simp [size]
  rw [resolve_of hresolved, ← hsize]
  split
  · exact Nat.le_max_left _ _
  · rename_i hne
    have hlength := length_intercalate resolved fun h => hne (h ▸ rfl)
    omega

/-- Without a segment that goes up, the path starts where the segments start. -/
theorem rooted_resolve {rest : List (List Char)} (h : ['.', '.'] ∉ rest) :
    rooted (resolve ([] :: rest)) = resolve ([] :: rest) := by
  have hremoved : removeDots [] ([] :: rest) = [] :: rest.filter (! isDots ·) := by
    rw [removeDots_eq (by simpa using h), List.filter_cons_of_pos (by decide), List.nil_append]
  obtain ⟨tail, htail⟩ : ∃ tail, (if ([] :: rest).getLast?.any isDots
      then removeDots [] ([] :: rest) ++ [[]] else removeDots [] ([] :: rest)) = [] :: tail := by
    rw [hremoved]
    split
    · exact ⟨_, List.cons_append⟩
    · exact ⟨_, rfl⟩
  rw [resolve_of htail]
  cases tail with
  | nil => rfl
  | cons seg tail => simp [List.intercalate_cons_cons, rooted]

/-- Where there is one, something is lost. -/
theorem length_resolve_lt (hdots : ∃ seg ∈ segs, isDots seg = true)
    (hhead : segs.head? = some []) :
    (rooted (resolve segs)).length < (['/'].intercalate segs).length := by
  obtain ⟨rest, rfl⟩ : ∃ rest, segs = [] :: rest := by
    cases segs with
    | nil => cases hhead
    | cons seg rest => exact ⟨rest, by rw [Option.some.inj hhead]⟩
  have hwhole := length_intercalate ([] :: rest) (List.cons_ne_nil _ _)
  have hle := length_resolve_le ([] :: rest)
  have hremoved := size_removeDots [] ([] :: rest)
  have hpart : ∀ seg ∈ [] :: rest, isDots seg = true →
      seg.length + 1 ≤ size (([] :: rest).filter isDots) ∧ seg.length + 2 ≤ size ([] :: rest) := by
    intro seg hmem hdot
    have hfilter := size_le_of_sublist
      (List.singleton_sublist.mpr (List.mem_filter.mpr ⟨hmem, hdot⟩))
    have hrest : seg ∈ rest := by
      rcases List.mem_cons.mp hmem with rfl | h
      · cases hdot
      · exact h
    have hsize := size_le_of_sublist (List.singleton_sublist.mpr hrest)
    simp only [size] at hfilter hsize ⊢
    omega
  by_cases hup : ['.', '.'] ∈ [] :: rest
  · obtain ⟨hfilter, hsize⟩ := hpart _ hup rfl
    have hrooted := length_rooted_le (resolve ([] :: rest))
    simp only [List.length_cons, List.length_nil] at hfilter hsize
    simp only [show size [] = 0 from rfl] at hremoved
    split at hle <;> omega
  · obtain ⟨seg, hmem, hdot⟩ := hdots
    obtain ⟨hfilter, hsize⟩ := hpart _ hmem hdot
    have hseg : 1 ≤ seg.length := by
      cases seg with
      | nil => cases hdot
      | cons c cs => simp
    rw [rooted_resolve fun h => hup (List.mem_cons_of_mem _ h)]
    simp only [show size [] = 0 from rfl] at hremoved
    split at hle <;> omega

/-! ### The path behind a directory -/

theorem size_lt_of_sublist (h : segs.Sublist segs') (hne : segs ≠ segs') :
    size segs < size segs' := by
  induction h with
  | slnil => exact absurd rfl hne
  | cons seg h _ =>
      have hle := size_le_of_sublist h
      simp only [size]
      omega
  | cons_cons seg _ ih =>
      have hlt := ih fun h => hne (congrArg _ h)
      simp only [size]
      omega

theorem compact_sublist (segs : List (List Char)) : (compact segs).Sublist segs := by
  cases segs with
  | nil => exact .slnil
  | cons seg segs =>
      have hlast : segs.dropLast ++ segs.getLast?.toList = segs := by
        cases segs using List.reverseRecOn with
        | nil => rfl
        | append_singleton segs last => simp
      refine .cons_cons _ ?_
      nth_rewrite 3 [← hlast]
      exact List.filter_sublist.append (.refl _)

theorem compact_concat {seg last : List Char} :
    compact (seg :: (segs ++ [last])) = seg :: (segs.filter (· ≠ []) ++ [last]) := by
  simp [compact]

/-- An empty segment in the middle falls out. -/
theorem compact_middle (hne : segs ≠ []) (hne' : segs' ≠ []) :
    compact (segs ++ [] :: segs') = compact (segs ++ segs') := by
  obtain ⟨rest, last, rfl⟩ := segs'.eq_nil_or_concat'.resolve_left hne'
  cases segs with
  | nil => exact absurd rfl hne
  | cons seg segs =>
      have hmiddle : segs ++ [] :: (rest ++ [last]) = (segs ++ [] :: rest) ++ [last] := by simp
      rw [List.cons_append, hmiddle, compact_concat, List.cons_append, ← List.append_assoc,
        compact_concat]
      simp

/-- The path up to its last slash. -/
def dirname (path : List Char) : List Char := (rpartition '/' path).1

theorem dirname_append {dir last : List Char} (h : '/' ∉ last) :
    dirname (dir ++ '/' :: last) = dir := by
  have htake : (last.reverse ++ '/' :: dir.reverse).dropWhile (· ≠ '/') = '/' :: dir.reverse := by
    rw [List.dropWhile_append_of_pos fun c hc => by
      simpa using fun he : c = '/' => h (he ▸ List.mem_reverse.mp hc)]
    simp
  rw [dirname, rpartition, List.reverse_append, List.reverse_cons, List.append_assoc,
    List.singleton_append, htake]
  simp

/-- A path with a slash ends in one and its last segment. -/
theorem exists_last {path : List Char} (h : '/' ∈ path) :
    ∃ dir last, path = dir ++ '/' :: last ∧ '/' ∉ last := by
  induction path with
  | nil => cases h
  | cons c path ih =>
      by_cases hmem : '/' ∈ path
      · obtain ⟨dir, last, rfl, hlast⟩ := ih hmem
        exact ⟨c :: dir, last, rfl, hlast⟩
      · obtain rfl : '/' = c := (List.mem_cons.mp h).resolve_right hmem
        exact ⟨[], path, rfl, hmem⟩

theorem compact_directory {bpath : List Char} (h : bpath = [] ∨ bpath.head? = some '/')
    (hne : segs ≠ []) :
    compact (directory bpath ++ segs) = compact ((dirname bpath).splitOn '/' ++ segs) := by
  rcases h with rfl | h
  · simp [directory, dirname, rpartition]
  · obtain ⟨dir, last, rfl, hlast⟩ := exists_last (List.mem_of_head? h)
    have hsplit : (dir ++ '/' :: last).splitOn '/' = dir.splitOn '/' ++ [last] := by
      rw [List.splitOn_append_cons_self, List.splitOn_eq_singleton hlast]
    rw [dirname_append hlast]
    unfold directory
    simp only [hsplit, List.getLast?_append, List.getLast?_singleton, Option.some_or,
      Option.some.injEq]
    split
    · rename_i hnil
      rw [hnil, List.append_assoc]
      exact compact_middle (List.splitOn_ne_nil _ _) hne
    · rw [List.dropLast_concat]

/-- Segments that nothing falls out of. -/
structure Plain (segs : List (List Char)) : Prop where
  compact : compact segs = segs
  dots : ∀ seg ∈ segs, isDots seg = false

theorem plain_cons {seg : List Char} (hne : segs ≠ []) : Plain (seg :: segs) ↔
    (∀ s ∈ segs.dropLast, s ≠ []) ∧ ∀ s ∈ seg :: segs, isDots s = false := by
  have hcompact : compact (seg :: segs) = seg :: segs ↔ ∀ s ∈ segs.dropLast, s ≠ [] := by
    obtain ⟨rest, last, rfl⟩ := segs.eq_nil_or_concat'.resolve_left hne
    simp [compact_concat, List.filter_eq_self]
  exact ⟨fun h => ⟨hcompact.mp h.compact, h.dots⟩, fun h => ⟨hcompact.mpr h.1, h.2⟩⟩

/-- What is put behind a directory: a slash less is lost by nothing but segments that fall out. -/
theorem resolve_compact {whole : List Char} (hhead : (whole.splitOn '/').head? = some [])
    (hlen : 2 ≤ (whole.splitOn '/').length) :
    (Plain (whole.splitOn '/') ∧ resolve (compact (whole.splitOn '/')) = whole) ∨
      (¬ Plain (whole.splitOn '/') ∧
        (rooted (resolve (compact (whole.splitOn '/')))).length < whole.length) := by
  have hsub := compact_sublist (whole.splitOn '/')
  obtain ⟨rest, hrest⟩ : ∃ rest, whole.splitOn '/' = [] :: rest := by
    cases hs : whole.splitOn '/' with
    | nil => exact absurd hs (List.splitOn_ne_nil _ _)
    | cons seg rest => exact ⟨rest, by rw [hs] at hhead; rw [Option.some.inj hhead]⟩
  have hne : rest ≠ [] := by
    rintro rfl
    rw [hrest] at hlen
    simp at hlen
  have hcompact : ∃ tail, compact (whole.splitOn '/') = [] :: tail ∧ tail ≠ [] := by
    rw [hrest]
    exact ⟨_, rfl, by simp [hne]⟩
  obtain ⟨tail, htail, htailne⟩ := hcompact
  have hwhole : ['/'].intercalate (whole.splitOn '/') = whole := List.intercalate_splitOn _
  have hsize := length_intercalate (compact (whole.splitOn '/')) (by simp [htail])
  have hsize' := size_splitOn whole
  -- a segment of dots takes one more with it, an empty one its slash
  by_cases hdots : ∃ seg ∈ compact (whole.splitOn '/'), isDots seg = true
  · refine .inr ⟨fun h => ?_, ?_⟩
    · obtain ⟨seg, hmem, hdot⟩ := hdots
      rw [h.dots seg (hsub.subset hmem)] at hdot
      cases hdot
    · have hlt := length_resolve_lt hdots (by rw [htail]; rfl)
      have hle := size_le_of_sublist hsub
      omega
  · have hnodots : ∀ seg ∈ compact (whole.splitOn '/'), isDots seg = false :=
      fun seg hmem => by simpa using fun h => hdots ⟨seg, hmem, h⟩
    have hresolve := resolve_eq hnodots (by
      rw [htail]
      exact Nat.succ_le_succ (List.length_pos_iff.mpr htailne))
    by_cases hsame : compact (whole.splitOn '/') = whole.splitOn '/'
    · refine .inl ⟨⟨hsame, hsame ▸ hnodots⟩, ?_⟩
      rw [hresolve, hsame, hwhole]
    · refine .inr ⟨fun h => hsame h.compact, ?_⟩
      have hlt := size_lt_of_sublist hsub hsame
      have hrooted : rooted (resolve (compact (whole.splitOn '/'))) =
          resolve (compact (whole.splitOn '/')) := by
        rw [htail]
        exact rooted_resolve fun h =>
          absurd (hnodots _ (htail ▸ List.mem_cons_of_mem _ h)) (by decide)
      rw [hrooted, hresolve]
      omega

theorem splitOn_rooted {path : List Char} (h : path.head? = some '/') :
    (path.splitOn '/').head? = some [] ∧ 2 ≤ (path.splitOn '/').length := by
  cases path with
  | nil => cases h
  | cons c rest =>
      cases h
      have hsplit : ('/' :: rest).splitOn '/' = [] :: rest.splitOn '/' := by
        simpa using List.splitOn_append_cons_self (a := '/') [] rest
      rw [hsplit]
      exact ⟨rfl, Nat.succ_le_succ (List.length_pos_iff.mpr (List.splitOn_ne_nil _ _))⟩

theorem head_dirname {bpath : List Char} (path : List Char)
    (h : bpath = [] ∨ bpath.head? = some '/') :
    (dirname bpath ++ '/' :: path).head? = some '/' := by
  rcases h with rfl | h
  · rfl
  · obtain ⟨dir, last, rfl, hlast⟩ := exists_last (List.mem_of_head? h)
    rw [dirname_append hlast]
    cases dir with
    | nil => rfl
    | cons c dir => simpa using h

theorem joinPath_spec {bpath path : List Char} (hb : bpath = [] ∨ bpath.head? = some '/')
    (hpath : path.head? ≠ some '/') :
    (Plain ((dirname bpath ++ '/' :: path).splitOn '/') ∧
        joinPath bpath path = dirname bpath ++ '/' :: path) ∨
      (¬ Plain ((dirname bpath ++ '/' :: path).splitOn '/') ∧
        (rooted (joinPath bpath path)).length < (dirname bpath ++ '/' :: path).length) := by
  obtain ⟨hhead, hlen⟩ := splitOn_rooted (head_dirname path hb)
  have hjoin : joinPath bpath path =
      resolve (compact ((dirname bpath ++ '/' :: path).splitOn '/')) := by
    rw [joinPath, if_neg hpath, compact_directory hb (List.splitOn_ne_nil _ _),
      List.splitOn_append_cons_self]
  rw [hjoin]
  exact resolve_compact hhead hlen

/-- A path that is rooted itself takes nothing of the base. -/
theorem joinPath_rooted {bpath path : List Char} (h : path.head? = some '/') :
    (rooted (joinPath bpath path)).length ≤ path.length := by
  obtain ⟨hhead, hlen⟩ := splitOn_rooted h
  have hwhole : ['/'].intercalate (path.splitOn '/') = path := List.intercalate_splitOn _
  rw [joinPath, if_pos h]
  by_cases hdots : ∃ seg ∈ path.splitOn '/', isDots seg = true
  · have hlt := length_resolve_lt hdots hhead
    rw [hwhole] at hlt
    exact Nat.le_of_lt hlt
  · rw [resolve_eq (fun seg hmem => by simpa using fun h => hdots ⟨seg, hmem, h⟩) hlen, hwhole,
      rooted, if_pos h]
/-! ### The characters of a path -/

theorem mem_intercalate_of_mem {c : Char} {seg : List Char} (hseg : seg ∈ segs) (hc : c ∈ seg) :
    c ∈ ['/'].intercalate segs := by
  induction segs with
  | nil => cases hseg
  | cons s segs ih =>
      cases segs with
      | nil =>
          rw [List.mem_singleton.mp hseg] at hc
          simpa using hc
      | cons s' segs =>
          rw [List.intercalate_cons_cons]
          rcases List.mem_cons.mp hseg with rfl | hseg
          · exact List.mem_append_left _ (List.mem_append_left _ hc)
          · exact List.mem_append_right _ (ih hseg)

theorem exists_of_mem_intercalate {c : Char} (h : c ∈ ['/'].intercalate segs) :
    c = '/' ∨ ∃ seg ∈ segs, c ∈ seg := by
  induction segs with
  | nil => cases h
  | cons s segs ih =>
      cases segs with
      | nil => exact .inr ⟨s, List.mem_cons_self, by simpa using h⟩
      | cons s' segs =>
          rw [List.intercalate_cons_cons, List.mem_append, List.mem_append] at h
          rcases h with (h | h) | h
          · exact .inr ⟨s, List.mem_cons_self, h⟩
          · exact .inl (List.mem_singleton.mp h)
          · exact (ih h).imp_right fun ⟨seg, hseg, hc⟩ => ⟨seg, List.mem_cons_of_mem _ hseg, hc⟩

theorem mem_of_mem_splitOn {c : Char} {path seg : List Char} (hseg : seg ∈ path.splitOn '/')
    (hc : c ∈ seg) : c ∈ path := by
  have h := mem_intercalate_of_mem hseg hc
  rwa [List.intercalate_splitOn] at h

theorem removeDots_subset : ∀ seg ∈ removeDots resolved segs, seg ∈ resolved ∨ seg ∈ segs := by
  induction segs generalizing resolved with
  | nil => exact fun seg h => .inl h
  | cons s segs ih =>
      intro seg h
      unfold removeDots at h
      split at h
      · exact (ih seg h).imp (fun h => (List.dropLast_sublist _).subset h)
          (List.mem_cons_of_mem _)
      · split at h
        · exact (ih seg h).imp_right (List.mem_cons_of_mem _)
        · rcases ih seg h with h | h
          · rcases List.mem_append.mp h with h | h
            · exact .inl h
            · exact .inr (List.mem_singleton.mp h ▸ List.mem_cons_self)
          · exact .inr (List.mem_cons_of_mem _ h)

theorem mem_resolve {c : Char} (h : c ∈ resolve segs) : c = '/' ∨ ∃ seg ∈ segs, c ∈ seg := by
  obtain ⟨resolved, hresolved⟩ : ∃ resolved, (if segs.getLast?.any isDots
    then removeDots [] segs ++ [[]] else removeDots [] segs) = resolved := ⟨_, rfl⟩
  have hsub : ∀ seg ∈ resolved, seg = [] ∨ seg ∈ segs := by
    intro seg hseg
    rw [← hresolved] at hseg
    split at hseg
    · rcases List.mem_append.mp hseg with hseg | hseg
      · exact .inr ((removeDots_subset seg hseg).resolve_left List.not_mem_nil)
      · exact .inl (List.mem_singleton.mp hseg)
    · exact .inr ((removeDots_subset seg hseg).resolve_left List.not_mem_nil)
  rw [resolve_of hresolved] at h
  split at h
  · exact .inl (List.mem_singleton.mp h)
  · rcases exists_of_mem_intercalate h with h | ⟨seg, hseg, hc⟩
    · exact .inl h
    · rcases hsub seg hseg with rfl | hmem
      · cases hc
      · exact .inr ⟨seg, hmem, hc⟩

theorem directory_subset {path seg : List Char} (h : seg ∈ directory path) :
    seg ∈ path.splitOn '/' := by
  simp only [directory] at h
  split at h
  · exact h
  · exact (List.dropLast_sublist _).subset h

theorem mem_joinPath {c : Char} {bpath path : List Char} (h : c ∈ joinPath bpath path) :
    c = '/' ∨ c ∈ bpath ∨ c ∈ path := by
  unfold joinPath at h
  split at h
  · rcases mem_resolve h with h | ⟨seg, hseg, hc⟩
    · exact .inl h
    · exact .inr (.inr (mem_of_mem_splitOn hseg hc))
  · rcases mem_resolve h with h | ⟨seg, hseg, hc⟩
    · exact .inl h
    · rcases List.mem_append.mp ((compact_sublist _).subset hseg) with hseg | hseg
      · exact .inr (.inl (mem_of_mem_splitOn (directory_subset hseg) hc))
      · exact .inr (.inr (mem_of_mem_splitOn hseg hc))

end Url
