import AsyncGateway.Lib.UrlPath

/-!
# Library — joining URLs

`urljoin` of Python: a reference is read with the scheme of the base and, where it names no network
location of its own, its path is put behind that of the base.
-/

namespace Url

variable {U : Unicode} {url : List Char} {p : Parts}

/-- `ParseResult`: the parameters of the last segment are not in the path. -/
structure Parsed extends Parts where
  params : List Char

/-- `_splitparams`. -/
def splitParams (path : List Char) : List Char × List Char :=
  let (dir, found, last) := rpartition '/' path
  let (name, _, params) := partition ';' last
  (if found then dir ++ '/' :: name else name, params)

/-- `urlparse`; none is a `ValueError`. -/
def urlparse (U : Unicode) (url scheme : List Char) : Option Parsed :=
  (urlsplit U url).map fun p =>
    let scheme := if p.scheme = [] then scheme else p.scheme
    let (path, params) :=
      if String.ofList scheme ∈ usesParams then splitParams p.path else (p.path, [])
    { scheme := scheme, netloc := p.netloc, path := path, query := p.query,
      fragment := p.fragment, params := params }

/-- `urlunparse`. -/
def urlunparse (p : Parsed) : List Char :=
  urlunsplit { p.toParts with path := if p.params = [] then p.path else p.path ++ ';' :: p.params }
/-- `urljoin`; none is a `ValueError`. -/
def urljoin (U : Unicode) (base url : List Char) : Option (List Char) :=
  if base = [] then some url
  else if url = [] then some base
  else do
    let b ← urlparse U base []
    let p ← urlparse U url b.scheme
    if p.scheme ≠ b.scheme ∨ String.ofList p.scheme ∉ usesRelative then some url
    else if String.ofList p.scheme ∈ usesNetloc ∧ p.netloc ≠ [] then some (urlunparse p)
    else
      let netloc := if String.ofList p.scheme ∈ usesNetloc then b.netloc else p.netloc
      if p.path = [] ∧ p.params = [] then
        some (urlunparse { p with netloc := netloc, path := b.path, params := b.params,
                                  query := if p.query = [] then b.query else p.query })
      else some (urlunparse { p with netloc := netloc, path := joinPath b.path p.path })
/-! ### Parameters -/

theorem rpartition_of_not_mem {c : Char} {s : List Char} (h : c ∉ s) :
    rpartition c s = ([], false, s) := by
  have hne : ∀ d ∈ s.reverse, decide (d ≠ c) = true := fun d hd =>
    decide_eq_true fun he => h (he ▸ List.mem_reverse.mp hd)
  have htake : s.reverse.takeWhile (· ≠ c) = s.reverse := List.takeWhile_eq_self_iff.mpr hne
  have hdrop : s.reverse.dropWhile (· ≠ c) = [] := List.dropWhile_eq_nil_iff.mpr hne
  simp only [rpartition, htake, hdrop]
  simp [h]

theorem rpartition_append {c : Char} {a b : List Char} (h : c ∉ b) :
    rpartition c (a ++ c :: b) = (a, true, b) := by
  have hne : ∀ d ∈ b.reverse, decide (d ≠ c) = true := fun d hd =>
    decide_eq_true fun he => h (he ▸ List.mem_reverse.mp hd)
  have hrev : (a ++ c :: b).reverse = b.reverse ++ c :: a.reverse := by simp
  rw [rpartition, hrev, List.takeWhile_append_of_pos hne, List.dropWhile_append_of_pos hne]
  simp

/-- A last segment without a semicolon has no parameters. -/
theorem splitParams_of_last {dir last : List Char} (hslash : '/' ∉ last) (hsemi : ';' ∉ last) :
    splitParams last = (last, []) ∧
      splitParams (dir ++ '/' :: last) = (dir ++ '/' :: last, []) := by
  unfold splitParams
  rw [rpartition_of_not_mem hslash, rpartition_append hslash]
  simp only [partition_of_not_mem hsemi]
  exact ⟨rfl, rfl⟩

theorem splitParams_eq (path : List Char) : splitParams path = (path, []) ∨
    ∃ a params, splitParams path = (a, params) ∧ path = a ++ ';' :: params := by
  by_cases hslash : '/' ∈ path
  · obtain ⟨dir, last, rfl, hlast⟩ := exists_last hslash
    unfold splitParams
    rw [rpartition_append hlast]
    rcases partition_eq (c := ';') last with ⟨-, heq⟩ | ⟨a, b, rfl, -, heq⟩
    · exact .inl (by simp [heq])
    · exact .inr ⟨dir ++ '/' :: a, b, by simp [heq], by simp⟩
  · unfold splitParams
    rw [rpartition_of_not_mem hslash]
    rcases partition_eq (c := ';') path with ⟨-, heq⟩ | ⟨a, b, rfl, -, heq⟩
    · exact .inl (by simp [heq])
    · exact .inr ⟨a, b, by simp [heq], rfl⟩

/-- A path, and parameters where there are any. -/
def withParams (path params : List Char) : List Char :=
  if params = [] then path else path ++ ';' :: params

theorem withParams_splitParams (path : List Char) :
    (withParams (splitParams path).1 (splitParams path).2).Sublist path := by
  rcases splitParams_eq path with h | ⟨a, params, h, rfl⟩
  · rw [h]
    exact .refl _
  · rw [h]
    unfold withParams
    split
    · exact List.sublist_append_left _ _
    · exact .refl _

theorem mem_splitParams {path : List Char} {c : Char}
    (h : c ∈ (splitParams path).1 ∨ c ∈ (splitParams path).2) : c ∈ path := by
  rcases splitParams_eq path with heq | ⟨a, params, heq, rfl⟩
  · simpa [heq] using h
  · rw [heq] at h
    exact h.elim (List.mem_append_left _) fun h =>
      List.mem_append_right _ (List.mem_cons_of_mem _ h)

theorem mem_withParams {path params : List Char} {c : Char} (h : c ∈ withParams path params) :
    c ∈ path ∨ c = ';' ∨ c ∈ params := by
  unfold withParams at h
  split at h
  · exact .inl h
  · exact (List.mem_append.mp h).imp_right List.mem_cons.mp

/-- What the parameters add to a path. -/
theorem length_withParams (path : List Char) : ∃ after : List Char,
    (∀ path', withParams path' (splitParams path).2 = path' ++ after) ∧
      (splitParams path).1.length + after.length ≤ path.length := by
  have hsub := (withParams_splitParams path).length_le
  unfold withParams at hsub ⊢
  by_cases hnil : (splitParams path).2 = []
  · refine ⟨[], fun path' => by rw [if_pos hnil, List.append_nil], ?_⟩
    rw [if_pos hnil] at hsub
    simpa using hsub
  · refine ⟨';' :: (splitParams path).2, fun path' => if_neg hnil, ?_⟩
    rw [if_neg hnil, List.length_append] at hsub
    exact hsub

theorem head_withParams {path : List Char} (h : path = [] ∨ path.head? = some '/') :
    withParams (splitParams path).1 (splitParams path).2 = [] ∨
      (withParams (splitParams path).1 (splitParams path).2).head? = some '/' := by
  rcases splitParams_eq path with heq | ⟨a, params, heq, rfl⟩
  · rw [heq]
    exact h
  · have hne : a ++ ';' :: params ≠ [] := by simp
    have hhead := h.resolve_left hne
    rw [heq]
    cases a with
    | nil => simp at hhead
    | cons c a =>
        refine .inr ?_
        unfold withParams
        split <;> simpa using hhead

/-! ### A base and a reference -/

/-- The scheme is one the library joins. -/
def Web (scheme : List Char) : Prop := scheme = "http".toList ∨ scheme = "https".toList

section Join

variable {scheme x : List Char}

theorem cleaned_slash (url : List Char) : cleaned (url ++ ['/']) = cleaned url ++ ['/'] := by
  unfold cleaned
  rw [List.dropWhile_append]
  split
  · rename_i hnil
    rw [List.isEmpty_iff.mp hnil]
    rfl
  · rw [List.filter_append]
    rfl

theorem cleaned_web (hscheme : Web scheme) (x : List Char) :
    cleaned (scheme ++ ':' :: '/' :: '/' :: x) =
      scheme ++ ':' :: '/' :: '/' :: x.filter (! isBreak ·) := by
  have hfilter : (fun c : Char => decide (c ∉ ['\t', '\r', '\n'])) = fun c => !isBreak c := by
    funext c
    simp [isBreak]
  unfold cleaned
  rw [hfilter]
  rcases hscheme with rfl | rfl <;> rfl

/-- What is read in a URL with a network location. -/
theorem reads_web (hscheme : Web scheme)
    (h : urlsplit U (scheme ++ ':' :: '/' :: '/' :: x) = some p) : p.scheme = scheme ∧
      ∃ tail, x.filter (! isBreak ·) = p.netloc ++ tail ∧
        (tail = [] ∨ tail.head?.any isDelim = true) ∧
        splitTail tail = (p.path, p.query, p.fragment) := by
  obtain ⟨rest, tail, hr⟩ := urlsplit_iff.mp h
  have hsplit := hr.scheme
  rw [cleaned_web hscheme, splitScheme_web hscheme] at hsplit
  obtain ⟨hs, rfl⟩ := Prod.mk.inj hsplit
  refine ⟨hs.symm, tail, ?_⟩
  rcases splitNetloc_eq hr.netloc with ⟨-, -, hnot⟩ | ⟨hrest, -, htail⟩
  · exact absurd ⟨_, rfl⟩ hnot
  · simp only [List.cons.injEq, true_and] at hrest
    exact ⟨hrest, htail, hr.tail⟩

theorem not_isBreak_delim {c : Char} (h : isDelim c = true) : isBreak c = false := by
  simp only [isDelim, List.mem_cons, List.not_mem_nil, or_false, decide_eq_true_eq] at h
  rcases h with rfl | rfl | rfl <;> rfl

theorem head_path {tail query fragment path : List Char}
    (h : splitTail tail = (path, query, fragment))
    (htail : tail = [] ∨ tail.head?.any isDelim = true) :
    path = [] ∨ path.head? = some '/' := by
  obtain ⟨post, rfl, hchars, -⟩ := splitTail_eq h
  cases path with
  | nil => exact .inl rfl
  | cons c path =>
      refine .inr ?_
      have hc : isDelim c = true := by simpa using htail
      have hne := hchars c List.mem_cons_self
      simp only [isDelim, List.mem_cons, List.not_mem_nil, or_false, decide_eq_true_eq] at hc
      rw [hc.resolve_right (by simp [hne.1, hne.2])]
      rfl

theorem splitTail_path (s : List Char) :
    (splitTail s).1 = s.takeWhile fun c => decide (c ≠ '?' ∧ c ≠ '#') := by
  obtain ⟨⟨path, query, fragment⟩, hsplit⟩ : ∃ t, splitTail s = t := ⟨_, rfl⟩
  obtain ⟨post, rfl, hchars, -, -, hpost, -⟩ := splitTail_eq hsplit
  rw [hsplit, List.takeWhile_append_of_pos fun c hc => decide_eq_true (hchars c hc)]
  rcases hpost with rfl | hpost | hpost
  · simp
  all_goals
    cases post with
    | nil => cases hpost
    | cons c post =>
        cases hpost
        simp

theorem splitTail_slash (s : List Char) : (splitTail (s ++ ['/'])).1 =
    if '?' ∈ s ∨ '#' ∈ s then (splitTail s).1 else (splitTail s).1 ++ ['/'] := by
  rw [splitTail_path, splitTail_path, List.takeWhile_append]
  by_cases hs : '?' ∈ s ∨ '#' ∈ s
  · rw [if_pos hs, if_neg]
    intro hlen
    have hall := List.takeWhile_eq_self_iff.mp
      ((List.takeWhile_sublist _).eq_of_length hlen)
    rcases hs with h | h <;> simpa using hall _ h
  · have hall : (s.takeWhile fun c => decide (c ≠ '?' ∧ c ≠ '#')) = s :=
      List.takeWhile_eq_self_iff.mpr fun c hc => decide_eq_true
        ⟨fun he => hs (.inl (he ▸ hc)), fun he => hs (.inr (he ▸ hc))⟩
    rw [if_neg hs, hall, if_pos rfl]
    rfl

/-- A slash behind a URL is behind its path, or behind what follows that. -/
theorem urlsplit_slash (hscheme : Web scheme)
    (h : urlsplit U (scheme ++ ':' :: '/' :: '/' :: x) = some p) :
    ∃ p', urlsplit U (scheme ++ ':' :: '/' :: '/' :: x ++ ['/']) = some p' ∧
      p'.scheme = p.scheme ∧ p'.netloc = p.netloc ∧
      (p.path = [] ∨ p.path.head? = some '/') ∧
      p'.path = if '?' ∈ x ∨ '#' ∈ x then p.path else p.path ++ ['/'] := by
  obtain ⟨hs, tail, hx, htail, hparts⟩ := reads_web hscheme h
  have hproper := proper_of_urlsplit h
  obtain ⟨⟨path, query, fragment⟩, hslash⟩ : ∃ t, splitTail (tail ++ ['/']) = t := ⟨_, rfl⟩
  have hmem : ∀ c, isDelim c = true → c ≠ '/' → (c ∈ x ↔ c ∈ tail) := by
    intro c hc hne
    have hfilter : c ∈ x.filter (! isBreak ·) ↔ c ∈ x := by
      simp [not_isBreak_delim hc]
    rw [← hfilter, hx, List.mem_append]
    refine or_iff_right fun hmem => ?_
    rw [hproper.netloc c hmem] at hc
    cases hc
  have hpath : path = if '?' ∈ x ∨ '#' ∈ x then p.path else p.path ++ ['/'] := by
    have hslashes := splitTail_slash tail
    rw [hslash, hparts] at hslashes
    simp only [hmem '?' rfl (by decide), hmem '#' rfl (by decide)]
    exact hslashes
  have hsplit : urlsplit U (scheme ++ ':' :: '/' :: '/' :: x ++ ['/']) =
      some ⟨scheme, p.netloc, path, query, fragment⟩ := by
    refine urlsplit_iff.mpr ⟨'/' :: '/' :: (p.netloc ++ (tail ++ ['/'])), tail ++ ['/'], ?_, ?_,
      hslash, hproper.admits⟩
    · rw [cleaned_slash, cleaned_web hscheme, hx]
      simpa using @splitScheme_web scheme ('/' :: '/' :: (p.netloc ++ (tail ++ ['/']))) hscheme
    · refine splitNetloc_append hproper.netloc (.inr ?_)
      rcases htail with rfl | htail
      · rfl
      · rw [List.head?_append]
        cases hhead : tail.head? with
        | none => simp [hhead] at htail
        | some c => simpa [hhead] using htail
  exact ⟨_, hsplit, hs.symm, rfl, head_path hparts htail, hpath⟩

/-- Whether a URL with a network location is read is a matter of that. -/
theorem urlsplit_eq_none (hscheme : Web scheme) (x : List Char) :
    urlsplit U (scheme ++ ':' :: '/' :: '/' :: x) = none ↔
      admits U ((x.filter (! isBreak ·)).takeWhile fun c => !isDelim c) = false := by
  have hnetloc : ∀ y : List Char, splitNetloc ('/' :: '/' :: y) =
      (y.takeWhile fun c => !isDelim c, y.dropWhile fun c => !isDelim c) := fun y => by
    rw [splitNetloc, if_pos (by simp)]
    rfl
  rw [urlsplit_eq, cleaned_web hscheme, splitScheme_web hscheme, hnetloc]
  split <;> simp_all

theorem urlsplit_of_slash {p' : Parts} (hscheme : Web scheme)
    (h : urlsplit U (scheme ++ ':' :: '/' :: '/' :: x ++ ['/']) = some p') :
    ∃ p, urlsplit U (scheme ++ ':' :: '/' :: '/' :: x) = some p := by
  refine Option.ne_none_iff_exists'.mp fun hnone => ?_
  have hsame : ((x ++ ['/']).filter (! isBreak ·)).takeWhile (fun c => !isDelim c) =
      (x.filter (! isBreak ·)).takeWhile fun c => !isDelim c := by
    have hslash : ['/'].takeWhile (fun c => !isDelim c) = [] := rfl
    rw [List.filter_append, List.takeWhile_append]
    split
    · rename_i hlen
      have hall : (x.filter (! isBreak ·)).takeWhile (fun c => !isDelim c) =
          x.filter (! isBreak ·) := (List.takeWhile_sublist _).eq_of_length hlen
      rw [hall]
      exact List.append_nil _
    · rfl
  rw [urlsplit_eq_none hscheme, ← hsame, ← urlsplit_eq_none hscheme] at hnone
  have hassoc : scheme ++ ':' :: '/' :: '/' :: (x ++ ['/']) =
      scheme ++ ':' :: '/' :: '/' :: x ++ ['/'] := by simp
  rw [hassoc, h] at hnone
  cases hnone

end Join
/-- The parameters are not in the directory. -/
theorem splitParams_dir {dir last : List Char} (h : '/' ∉ last) : ∃ name params,
    splitParams (dir ++ '/' :: last) = (dir ++ '/' :: name, params) ∧ '/' ∉ name := by
  unfold splitParams
  rw [rpartition_append h]
  exact ⟨_, _, rfl, fun hmem => h ((List.takeWhile_sublist _).subset hmem)⟩

theorem splitParams_rooted {path : List Char} (h : path = [] ∨ path.head? = some '/') :
    dirname (splitParams path).1 = dirname path ∧
      ((splitParams path).1 = [] ∨ (splitParams path).1.head? = some '/') := by
  rcases h with rfl | h
  · exact ⟨rfl, .inl rfl⟩
  · obtain ⟨dir, last, rfl, hlast⟩ := exists_last (List.mem_of_head? h)
    obtain ⟨name, params, hsplit, hname⟩ := @splitParams_dir dir last hlast
    rw [hsplit, dirname_append hlast, dirname_append hname]
    refine ⟨rfl, .inr ?_⟩
    cases dir with
    | nil => rfl
    | cons c dir => simpa using h
section Urljoin

variable {q : Parts} {base ref : List Char}

/-- What `urlparse` makes of the parts. -/
def parsed (scheme : List Char) (p : Parts) : Parsed where
  scheme := scheme
  netloc := p.netloc
  path := (splitParams p.path).1
  query := p.query
  fragment := p.fragment
  params := (splitParams p.path).2

theorem Web.uses {scheme : List Char} (h : Web scheme) : scheme ≠ [] ∧
    String.ofList scheme ∈ usesParams ∧ String.ofList scheme ∈ usesRelative ∧
      String.ofList scheme ∈ usesNetloc := by
  rcases h with rfl | rfl <;> decide

theorem urlparse_web {scheme s : List Char} (h : urlsplit U url = some p)
    (hs : (if p.scheme = [] then scheme else p.scheme) = s) (hweb : Web s) :
    urlparse U url scheme = some (parsed s p) := by
  simp only [urlparse, h, Option.map_some, hs, if_pos hweb.uses.2.1]
  rfl

theorem urlparse_base (h : urlsplit U url = some p) (hweb : Web p.scheme) :
    urlparse U url [] = some (parsed p.scheme p) :=
  urlparse_web h (if_neg hweb.uses.1) hweb

/-- What is joined is read. -/
theorem exists_of_urljoin (hbase : base ≠ []) (href : ref ≠ [])
    (h : urljoin U base ref = some url) : ∃ q, urlsplit U ref = some q := by
  unfold urljoin at h
  rw [if_neg hbase, if_neg href, Option.bind_eq_bind, Option.bind_eq_some_iff] at h
  obtain ⟨b, -, h⟩ := h
  obtain ⟨parts, hparts, -⟩ := Option.bind_eq_some_iff.mp h
  obtain ⟨q, hq, -⟩ := Option.map_eq_some_iff.mp hparts
  exact ⟨q, hq⟩

/-- A reference with a scheme of its own is not joined. -/
theorem urljoin_foreign (hbase : base ≠ []) (href : ref ≠ []) (hp : urlsplit U base = some p)
    (hweb : Web p.scheme) (hq : urlsplit U ref = some q) (hs : q.scheme ≠ [])
    (hne : q.scheme ≠ p.scheme) : urljoin U base ref = some ref := by
  obtain ⟨parts, hparts, hscheme⟩ :
      ∃ parts, urlparse U ref p.scheme = some parts ∧ parts.scheme = q.scheme := by
    unfold urlparse
    rw [hq]
    exact ⟨_, rfl, if_neg hs⟩
  unfold urljoin
  rw [if_neg hbase, if_neg href, urlparse_base hp hweb]
  simp only [Option.bind_eq_bind, Option.bind_some]
  change ((urlparse U ref p.scheme).bind fun parts => _) = _
  rw [hparts, Option.bind_some]
  exact if_pos (.inl (hscheme ▸ hne))

/-- One without is, at the network location. -/
theorem urljoin_web (hbase : base ≠ []) (href : ref ≠ []) (hp : urlsplit U base = some p)
    (hweb : Web p.scheme) (hq : urlsplit U ref = some q)
    (hs : q.scheme = [] ∨ q.scheme = p.scheme) : urljoin U base ref =
      if q.netloc ≠ [] then some (urlunparse (parsed p.scheme q))
      else if (splitParams q.path).1 = [] ∧ (splitParams q.path).2 = [] then
        some (urlunparse { parsed p.scheme p with
          query := if q.query = [] then p.query else q.query
          fragment := q.fragment })
      else some (urlunparse { parsed p.scheme q with
        netloc := p.netloc
        path := joinPath (splitParams p.path).1 (splitParams q.path).1 }) := by
  have hparts : urlparse U ref p.scheme = some (parsed p.scheme q) := by
    refine urlparse_web hq ?_ hweb
    rcases hs with h | h
    · rw [if_pos h]
    · rw [h, if_neg hweb.uses.1]
  obtain ⟨-, -, hrelative, hnetloc⟩ := hweb.uses
  unfold urljoin
  rw [if_neg hbase, if_neg href, urlparse_base hp hweb]
  simp only [Option.bind_eq_bind, Option.bind_some]
  change ((urlparse U ref p.scheme).bind fun parts => _) = _
  rw [hparts, Option.bind_some]
  simp only [parsed, ne_eq, not_true_eq_false, hrelative, hnetloc, or_self, if_false, true_and,
    if_true]
  rfl

theorem path_of_netloc (hq : urlsplit U url = some q) (hn : q.netloc ≠ []) :
    q.path = [] ∨ q.path.head? = some '/' := by
  obtain ⟨rest, tail, hr⟩ := urlsplit_iff.mp hq
  rcases splitNetloc_eq hr.netloc with ⟨hnil, -⟩ | ⟨-, -, htail⟩
  · exact absurd hnil hn
  · exact head_path hr.tail htail

theorem placed_eq (h : p.path = [] ∨ p.path.head? = some '/') : placed p = p.path := by
  unfold placed rooted
  rcases h with h | h
  · rw [if_neg fun hn => hn.2 h]
  · rw [if_pos h, ite_self]

theorem length_placed_le (p : Parts) : (placed p).length ≤ (rooted p.path).length := by
  unfold placed
  split
  · exact Nat.le_refl _
  · unfold rooted
    split <;> simp

theorem length_rooted_append (path after : List Char) :
    (rooted (path ++ after)).length ≤ (rooted path).length + after.length := by
  cases path with
  | nil =>
      have hle := length_rooted_le after
      have hnil : (rooted []).length = 1 := rfl
      rw [List.nil_append]
      omega
  | cons c path =>
      unfold rooted
      rw [List.cons_append, List.head?_cons, List.head?_cons]
      split <;> simp only [List.length_cons, List.length_append] <;> omega

theorem urlunparse_eq (p : Parsed) :
    urlunparse p = urlunsplit { p.toParts with path := withParams p.path p.params } := rfl

/-- Parts put together from those of a base and those of a reference. -/
theorem Proper.mix {r : Parts} (hp : Proper U p) (hq : Proper U q)
    (hnetloc : r.netloc = p.netloc ∨ r.netloc = q.netloc)
    (hquery : r.query = p.query ∨ r.query = q.query) (hfragment : r.fragment = q.fragment)
    (hpath : ∀ c ∈ r.path, c ∈ ['/', ';'] ∨ c ∈ p.path ∨ c ∈ q.path) : Proper U r := by
  have hbreaks := hp.breaks
  have hbreaks' := hq.breaks
  simp only [List.forall_mem_append] at hbreaks hbreaks'
  obtain ⟨⟨⟨hn, hpa⟩, hqu⟩, -⟩ := hbreaks
  obtain ⟨⟨⟨hn', hpa'⟩, hqu'⟩, hfr'⟩ := hbreaks'
  have hslash : ∀ c ∈ ['/', ';'], (c ≠ '?' ∧ c ≠ '#') ∧ isBreak c = false := by simp [isBreak]
  refine ⟨?_, ?_, fun c hc => ?_, ?_, ?_⟩
  · rcases hnetloc with h | h <;> rw [h]
    · exact hp.admits
    · exact hq.admits
  · rcases hnetloc with h | h <;> rw [h]
    · exact hp.netloc
    · exact hq.netloc
  · rcases hpath c hc with h | h | h
    · exact (hslash c h).1
    · exact hp.path c h
    · exact hq.path c h
  · rcases hquery with h | h <;> rw [h]
    · exact hp.query
    · exact hq.query
  · simp only [List.forall_mem_append]
    refine ⟨⟨⟨?_, fun c hc => ?_⟩, ?_⟩, ?_⟩
    · rcases hnetloc with h | h <;> rw [h]
      · exact hn
      · exact hn'
    · rcases hpath c hc with h | h | h
      · exact (hslash c h).2
      · exact hpa c h
      · exact hpa' c h
    · rcases hquery with h | h <;> rw [h]
      · exact hqu
      · exact hqu'
    · rw [hfragment]
      exact hfr'

/-- A reference with a network location keeps it. -/
theorem urljoin_netloc (hbase : base ≠ []) (href : ref ≠ []) (hp : urlsplit U base = some p)
    (hweb : Web p.scheme) (hq : urlsplit U ref = some q)
    (hs : q.scheme = [] ∨ q.scheme = p.scheme) (hn : q.netloc ≠ []) :
    ∃ url r, urljoin U base ref = some url ∧ urlsplit U url = some r ∧ r.scheme = p.scheme ∧
      r.netloc = q.netloc ∧ r.path.length ≤ q.path.length := by
  have hjoin := urljoin_web hbase href hp hweb hq hs
  rw [if_pos hn, urlunparse_eq] at hjoin
  have hsub := withParams_splitParams q.path
  have hproper : Proper U { (parsed p.scheme q).toParts with
      path := withParams (parsed p.scheme q).path (parsed p.scheme q).params } :=
    Proper.mix (proper_of_urlsplit hp) (proper_of_urlsplit hq) (.inr rfl) (.inr rfl) rfl
      fun c hc => .inr (.inr (hsub.subset hc))
  refine ⟨_, _, hjoin, urlsplit_urlunsplit hproper hweb, rfl, rfl, ?_⟩
  rw [placed_eq (head_withParams (path_of_netloc hq hn))]
  exact hsub.length_le

/-- Put behind a directory, a path has the room of both and a slash. -/
theorem length_rooted_joinPath {base ref : List Char}
    (hrooted : base = [] ∨ base.head? = some '/') :
    (rooted (joinPath base ref)).length ≤ (dirname base).length + 1 + ref.length := by
  by_cases hhead : ref.head? = some '/'
  · have hle := @joinPath_rooted base _ hhead
    omega
  · rcases joinPath_spec hrooted hhead with ⟨-, heq⟩ | ⟨-, hlt⟩
    · rw [heq, rooted, if_pos (head_dirname _ hrooted)]
      simp only [List.length_append, List.length_cons]
      omega
    · simp only [List.length_append, List.length_cons] at hlt
      omega

/-- A reference without a network location and a path has those of the base. -/
theorem urljoin_same_path (hbase : base ≠ []) (href : ref ≠ []) (hp : urlsplit U base = some p)
    (hweb : Web p.scheme) (hpath : p.path = [] ∨ p.path.head? = some '/')
    (hq : urlsplit U ref = some q) (hs : q.scheme = [] ∨ q.scheme = p.scheme) (hn : q.netloc = [])
    (hnil : (splitParams q.path).1 = [] ∧ (splitParams q.path).2 = []) :
    ∃ url r, urljoin U base ref = some url ∧ urlsplit U url = some r ∧ r.scheme = p.scheme ∧
      r.netloc = p.netloc ∧ r.path.length ≤ p.path.length := by
  have hjoin := urljoin_web hbase href hp hweb hq hs
  rw [if_neg (not_not.mpr hn), if_pos hnil] at hjoin
  have hsub := withParams_splitParams p.path
  have hproper : Proper U
      { scheme := p.scheme, netloc := p.netloc,
        path := withParams (splitParams p.path).1 (splitParams p.path).2,
        query := if q.query = [] then p.query else q.query, fragment := q.fragment } := by
    refine Proper.mix (proper_of_urlsplit hp) (proper_of_urlsplit hq) (.inl rfl) ?_ rfl
      fun c hc => .inr (.inl (hsub.subset hc))
    dsimp only
    split
    · exact .inl rfl
    · exact .inr rfl
  refine ⟨_, _, hjoin, urlsplit_urlunsplit hproper hweb, rfl, rfl, ?_⟩
  rw [placed_eq (head_withParams hpath)]
  exact hsub.length_le

/-- One without is put behind the directory of the base. -/
theorem urljoin_relative (hbase : base ≠ []) (href : ref ≠ []) (hp : urlsplit U base = some p)
    (hweb : Web p.scheme) (hpath : p.path = [] ∨ p.path.head? = some '/')
    (hq : urlsplit U ref = some q) (hs : q.scheme = [] ∨ q.scheme = p.scheme)
    (hn : q.netloc = []) :
    ∃ url r, urljoin U base ref = some url ∧ urlsplit U url = some r ∧ r.scheme = p.scheme ∧
      r.netloc = p.netloc ∧
      r.path.length ≤ max p.path.length ((dirname p.path).length + 1 + q.path.length) ∧
      (splitParams q.path = (q.path, []) → q.path ≠ [] → q.path.head? ≠ some '/' →
        (Plain ((dirname p.path ++ '/' :: q.path).splitOn '/') ∧
            r.path = dirname p.path ++ '/' :: q.path) ∨
          (¬ Plain ((dirname p.path ++ '/' :: q.path).splitOn '/') ∧
            r.path.length < (dirname p.path).length + 1 + q.path.length)) := by
  obtain ⟨hdir, hrooted⟩ := splitParams_rooted hpath
  by_cases hnil : (splitParams q.path).1 = [] ∧ (splitParams q.path).2 = []
  · obtain ⟨url, r, hjoin, hr, hscheme, hnetloc, hlen⟩ :=
      urljoin_same_path hbase href hp hweb hpath hq hs hn hnil
    refine ⟨url, r, hjoin, hr, hscheme, hnetloc, hlen.trans (Nat.le_max_left _ _), ?_⟩
    intro hparams hne
    rw [hparams] at hnil
    exact absurd hnil.1 hne
  · have hjoin := urljoin_web hbase href hp hweb hq hs
    rw [if_neg (not_not.mpr hn), if_neg hnil] at hjoin
    -- every character of the new path is one of the two paths, or a separator
    have hproper : Proper U
        { scheme := p.scheme, netloc := p.netloc,
          path := withParams (joinPath (splitParams p.path).1 (splitParams q.path).1)
            (splitParams q.path).2,
          query := q.query, fragment := q.fragment } := by
      refine Proper.mix (proper_of_urlsplit hp) (proper_of_urlsplit hq) (.inl rfl) (.inr rfl) rfl
        fun c hc => ?_
      rcases mem_withParams hc with hc | rfl | hc
      · rcases mem_joinPath hc with rfl | hc | hc
        · exact .inl (by decide)
        · exact .inr (.inl (mem_splitParams (.inl hc)))
        · exact .inr (.inr (mem_splitParams (.inl hc)))
      · exact .inl (by decide)
      · exact .inr (.inr (mem_splitParams (.inr hc)))
    have hjoin : urljoin U base ref = some (urlunsplit
        { scheme := p.scheme, netloc := p.netloc,
          path := withParams (joinPath (splitParams p.path).1 (splitParams q.path).1)
            (splitParams q.path).2,
          query := q.query, fragment := q.fragment }) := hjoin
    obtain ⟨after, hafter, hlen⟩ := length_withParams q.path
    rw [hafter] at hjoin hproper
    refine ⟨_, _, hjoin, urlsplit_urlunsplit hproper hweb, rfl, rfl, ?_, fun hparams _ hhead => ?_⟩
    · have hplaced := length_placed_le
        ⟨p.scheme, p.netloc, joinPath (splitParams p.path).1 (splitParams q.path).1 ++ after,
          q.query, q.fragment⟩
      have happend := length_rooted_append
        (joinPath (splitParams p.path).1 (splitParams q.path).1) after
      have hjoined := @length_rooted_joinPath _ (splitParams q.path).1 hrooted
      rw [hdir] at hjoined
      refine Nat.le_trans ?_ (Nat.le_max_right _ _)
      dsimp only at hplaced ⊢
      omega
    · have hnone : after = [] := by
        simp only [hparams] at hlen
        exact List.eq_nil_of_length_eq_zero (by omega)
      subst hnone
      simp only [hparams, List.append_nil]
      rw [← hdir]
      rcases joinPath_spec hrooted hhead with ⟨hplain, heq⟩ | ⟨hplain, hlt⟩
      · refine .inl ⟨hplain, ?_⟩
        rw [placed_eq (.inr (by rw [heq]; exact head_dirname _ hrooted))]
        exact heq
      · refine .inr ⟨hplain, ?_⟩
        have hplaced := length_placed_le
          ⟨p.scheme, p.netloc, joinPath (splitParams p.path).1 q.path, q.query, q.fragment⟩
        simp only [List.length_append, List.length_cons] at hlt hplaced ⊢
        omega

end Urljoin

end Url
