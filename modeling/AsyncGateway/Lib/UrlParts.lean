import AsyncGateway.Lib.Url
import Mathlib.Data.List.Basic
import Mathlib.Data.List.TakeWhile
import Mathlib.Order.Basic

/-!
# Library — reading a URL again

`urlunsplit` of Python puts the parts of a URL together.  `urlsplit_urlunsplit` is the round trip
through `urlsplit`, for the parts that it can have read itself (`proper_of_urlsplit`).
-/

namespace Url

/-! ### The parts and the whole -/

def usesRelative : List String :=
  ["", "ftp", "http", "gopher", "nntp", "imap", "wais", "file", "https", "shttp", "mms",
    "prospero", "rtsp", "rtsps", "rtspu", "sftp", "svn", "svn+ssh", "ws", "wss"]

def usesNetloc : List String :=
  ["", "ftp", "http", "gopher", "nntp", "telnet", "imap", "wais", "file", "mms", "https", "shttp",
    "snews", "prospero", "rtsp", "rtsps", "rtspu", "rsync", "svn", "svn+ssh", "sftp", "nfs", "git",
    "git+ssh", "ws", "wss", "itms-services"]

def usesParams : List String :=
  ["", "ftp", "hdl", "prospero", "http", "imap", "https", "shttp", "rtsp", "rtsps", "rtspu", "sip",
    "sips", "mms", "sftp", "tel"]

/-- `urlunsplit`. -/
def urlunsplit (p : Parts) : List Char :=
  let url :=
    if p.netloc ≠ [] then
      "//".toList ++ p.netloc ++
        (if p.path ≠ [] ∧ p.path.head? ≠ some '/' then '/' :: p.path else p.path)
    else if "//".toList.isPrefixOf p.path then "//".toList ++ p.path
    else if p.scheme ≠ [] ∧ String.ofList p.scheme ∈ usesNetloc ∧
        (p.path = [] ∨ p.path.head? = some '/') then "//".toList ++ p.path
    else p.path
  let url := if p.scheme ≠ [] then p.scheme ++ ':' :: url else url
  let url := if p.query ≠ [] then url ++ '?' :: p.query else url
  if p.fragment ≠ [] then url ++ '#' :: p.fragment else url

/-! ### What a URL is read as -/

variable {U : Unicode} {url : List Char} {p : Parts}

/-- The characters `urlsplit` takes out wherever they are. -/
def isBreak (c : Char) : Bool := c ∈ ['\t', '\r', '\n']

/-- What `urlsplit` reads. -/
def cleaned (url : List Char) : List Char :=
  (url.dropWhile fun c => decide (c.toNat ≤ 32)).filter fun c => c ∉ ['\t', '\r', '\n']

def isDelim (c : Char) : Bool := c ∈ ['/', '?', '#']

/-- The network location, and what is behind it. -/
def splitNetloc (rest : List Char) : List Char × List Char :=
  if "//".toList.isPrefixOf rest then
    ((rest.drop 2).takeWhile fun c => !isDelim c, (rest.drop 2).dropWhile fun c => !isDelim c)
  else ([], rest)

/-- The network locations `urlsplit` lets through. -/
def admits (U : Unicode) (netloc : List Char) : Bool :=
  !(netloc.contains '[' != netloc.contains ']') &&
    !(netloc.contains '[' && !bracketedNetlocOk netloc) && netlocOk U netloc

/-- The path, the query and the fragment. -/
def splitTail (rest : List Char) : List Char × List Char × List Char :=
  let (rest, _, fragment) := partition '#' rest
  let (path, _, query) := partition '?' rest
  (path, query, fragment)

theorem admits_ite {α : Type} (netloc : List Char) (x : α) :
    (if netloc.contains '[' != netloc.contains ']' then none
      else if netloc.contains '[' && !bracketedNetlocOk netloc then none
      else if !netlocOk U netloc then none
      else some x) = if admits U netloc then some x else none := by
  unfold admits
  cases netloc.contains '[' != netloc.contains ']' <;>
    cases netloc.contains '[' && !bracketedNetlocOk netloc <;>
      cases netlocOk U netloc <;> rfl

theorem urlsplit_eq (U : Unicode) (url : List Char) : urlsplit U url =
    if admits U (splitNetloc (splitScheme (cleaned url)).2).1 then
      some ⟨(splitScheme (cleaned url)).1, (splitNetloc (splitScheme (cleaned url)).2).1,
        (splitTail (splitNetloc (splitScheme (cleaned url)).2).2).1,
        (splitTail (splitNetloc (splitScheme (cleaned url)).2).2).2.1,
        (splitTail (splitNetloc (splitScheme (cleaned url)).2).2).2.2⟩
    else none := by
  rw [← admits_ite]
  by_cases hslashes : "//".toList.isPrefixOf (splitScheme (cleaned url)).2
  · have hnetloc : splitNetloc (splitScheme (cleaned url)).2 =
        (((splitScheme (cleaned url)).2.drop 2).takeWhile fun c => !isDelim c,
          ((splitScheme (cleaned url)).2.drop 2).dropWhile fun c => !isDelim c) :=
      if_pos hslashes
    rw [hnetloc]
    have hif : ∀ a b : List Char, (if "//".toList.isPrefixOf (splitScheme (cleaned url)).2
      then a else b) = a := fun _ _ => if_pos hslashes
    unfold urlsplit
    unfold cleaned at hif
    simp only [hif]
    rfl
  · have hnetloc : splitNetloc (splitScheme (cleaned url)).2 =
        ([], (splitScheme (cleaned url)).2) :=
      if_neg hslashes
    rw [hnetloc]
    have hif : ∀ a b : List Char, (if "//".toList.isPrefixOf (splitScheme (cleaned url)).2
      then a else b) = b := fun _ _ => if_neg hslashes
    unfold urlsplit
    unfold cleaned at hif
    simp only [hif]
    rfl

/-- What is read in a URL, step by step. -/
structure Reads (U : Unicode) (url : List Char) (p : Parts) (rest tail : List Char) : Prop where
  scheme : splitScheme (cleaned url) = (p.scheme, rest)
  netloc : splitNetloc rest = (p.netloc, tail)
  tail : splitTail tail = (p.path, p.query, p.fragment)
  admits : admits U p.netloc = true

theorem urlsplit_iff : urlsplit U url = some p ↔ ∃ rest tail, Reads U url p rest tail := by
  rw [urlsplit_eq]
  constructor
  · intro h
    split at h
    · rename_i hadmits
      cases h
      exact ⟨_, _, rfl, rfl, rfl, hadmits⟩
    · cases h
  · rintro ⟨rest, tail, hscheme, hnetloc, htail, hadmits⟩
    simp only [hscheme, hnetloc, htail, if_pos hadmits]

section Pieces

variable {rest tail scheme netloc path query fragment : List Char}

theorem partition_eq {c : Char} (s : List Char) :
    (c ∉ s ∧ partition c s = (s, false, [])) ∨
      ∃ a b, s = a ++ c :: b ∧ c ∉ a ∧ partition c s = (a, true, b) := by
  induction s with
  | nil => exact .inl ⟨List.not_mem_nil, rfl⟩
  | cons d s ih =>
      by_cases hd : d = c
      · subst hd
        exact .inr ⟨[], s, rfl, List.not_mem_nil, by simp [partition]⟩
      · rcases ih with ⟨hmem, heq⟩ | ⟨a, b, rfl, hmem, heq⟩
        · refine .inl ⟨by simp [hmem, Ne.symm hd], ?_⟩
          simp only [partition, Prod.mk.injEq] at heq ⊢
          simpa [hd, Ne.symm hd, hmem] using heq
        · refine .inr ⟨d :: a, b, rfl, by simp [hmem, Ne.symm hd], ?_⟩
          simp only [partition, Prod.mk.injEq] at heq ⊢
          simpa [hd] using heq

theorem splitScheme_eq (h : splitScheme url = (scheme, rest)) : (scheme = [] ∧ rest = url) ∨
    ∃ before, url = before ++ ':' :: rest ∧ scheme = before.map Char.toLower ∧
      before.head?.any isAsciiAlpha = true ∧ before.all schemeChar = true := by
  unfold splitScheme at h
  rcases partition_eq (c := ':') url with ⟨-, hp⟩ | ⟨a, b, rfl, -, hp⟩
  · simp only [hp, Bool.false_and, Bool.false_eq_true, if_false, Prod.mk.injEq] at h
    exact .inl ⟨h.1.symm, h.2.symm⟩
  · simp only [hp, Bool.true_and, Bool.and_eq_true] at h
    split at h
    · rename_i hcond
      obtain ⟨rfl, rfl⟩ := Prod.mk.inj h
      exact .inr ⟨a, rfl, rfl, hcond⟩
    · obtain ⟨rfl, rfl⟩ := Prod.mk.inj h
      exact .inl ⟨rfl, rfl⟩

theorem splitNetloc_eq (h : splitNetloc rest = (netloc, tail)) :
    (netloc = [] ∧ tail = rest ∧ ¬ "//".toList <+: rest) ∨
      (rest = '/' :: '/' :: (netloc ++ tail) ∧ (∀ c ∈ netloc, isDelim c = false) ∧
        (tail = [] ∨ tail.head?.any isDelim = true)) := by
  unfold splitNetloc at h
  split at h
  · rename_i hslashes
    obtain ⟨body, rfl⟩ := List.isPrefixOf_iff_prefix.mp hslashes
    obtain ⟨rfl, rfl⟩ := Prod.mk.inj h
    refine .inr ⟨?_, fun c hc => ?_, ?_⟩
    · rw [List.takeWhile_append_dropWhile]
      rfl
    · simpa using List.all_eq_true.mp List.all_takeWhile c hc
    · cases hdrop : ("//".toList ++ body).drop 2 |>.dropWhile fun c => !isDelim c with
      | nil => exact .inl rfl
      | cons c cs =>
          refine .inr ?_
          have hnot := List.head?_dropWhile_not (fun c => !isDelim c) (("//".toList ++ body).drop 2)
          rw [hdrop] at hnot
          simpa using hnot
  · rename_i hslashes
    obtain ⟨rfl, rfl⟩ := Prod.mk.inj h
    exact .inl ⟨rfl, rfl, fun hp => hslashes (List.isPrefixOf_iff_prefix.mpr hp)⟩

theorem splitTail_eq (h : splitTail tail = (path, query, fragment)) :
    ∃ post, tail = path ++ post ∧ (∀ c ∈ path, c ≠ '?' ∧ c ≠ '#') ∧ '#' ∉ query ∧
      query.length + fragment.length ≤ post.length ∧
      (post = [] ∨ post.head? = some '?' ∨ post.head? = some '#') ∧
      ∀ c ∈ query ++ fragment, c ∈ post := by
  unfold splitTail at h
  rcases partition_eq (c := '#') tail with ⟨hhash, hp⟩ | ⟨a, b, rfl, hhash, hp⟩
  · rcases partition_eq (c := '?') tail with ⟨hquery, hq⟩ | ⟨a, b, rfl, hquery, hq⟩
    · simp only [hp, hq, Prod.mk.injEq] at h
      obtain ⟨rfl, rfl, rfl⟩ := h
      refine ⟨[], by simp, fun c hc => ⟨?_, ?_⟩, by simp, by simp, .inl rfl, by simp⟩
      · exact fun h => hquery (h ▸ hc)
      · exact fun h => hhash (h ▸ hc)
    · simp only [hp, hq, Prod.mk.injEq] at h
      obtain ⟨rfl, rfl, rfl⟩ := h
      refine ⟨'?' :: b, rfl, fun c hc => ⟨?_, ?_⟩, fun h => hhash (by simp [h]), by simp,
        .inr (.inl rfl), by simp +contextual⟩
      · exact fun h => hquery (h ▸ hc)
      · exact fun h => hhash (by simp [h ▸ hc])
  · rcases partition_eq (c := '?') a with ⟨hquery, hq⟩ | ⟨a, b', rfl, hquery, hq⟩
    · simp only [hp, hq, Prod.mk.injEq] at h
      obtain ⟨rfl, rfl, rfl⟩ := h
      refine ⟨'#' :: b, rfl, fun c hc => ⟨?_, ?_⟩, by simp, by simp, .inr (.inr rfl),
        by simp +contextual⟩
      · exact fun h => hquery (h ▸ hc)
      · exact fun h => hhash (h ▸ hc)
    · simp only [hp, hq, Prod.mk.injEq] at h
      obtain ⟨rfl, rfl, rfl⟩ := h
      refine ⟨'?' :: (b' ++ '#' :: b), by simp, fun c hc => ⟨?_, ?_⟩, fun h => hhash (by simp [h]),
        by simp; omega, .inr (.inl rfl), ?_⟩
      · exact fun h => hquery (h ▸ hc)
      · exact fun h => hhash (by simp [h ▸ hc])
      · intro c hc
        rcases List.mem_append.mp hc with hc | hc <;> simp [hc]

theorem partition_of_not_mem {c : Char} {s : List Char} (h : c ∉ s) :
    partition c s = (s, false, []) := by
  rcases partition_eq (c := c) s with ⟨-, heq⟩ | ⟨a, b, rfl, -, -⟩
  · exact heq
  · simp at h

theorem partition_append {c : Char} {a b : List Char} (h : c ∉ a) :
    partition c (a ++ c :: b) = (a, true, b) := by
  have hne : ∀ d ∈ a, d ≠ c := fun d hd he => h (he ▸ hd)
  rw [partition, List.takeWhile_append_of_pos (by simpa using hne),
    List.dropWhile_append_of_pos (by simpa using hne)]
  simp

theorem splitNetloc_append (hnetloc : ∀ c ∈ netloc, isDelim c = false)
    (htail : tail = [] ∨ tail.head?.any isDelim = true) :
    splitNetloc ('/' :: '/' :: (netloc ++ tail)) = (netloc, tail) := by
  have hstop : (tail.takeWhile fun c => !isDelim c) = [] ∧
      (tail.dropWhile fun c => !isDelim c) = tail := by
    cases tail with
    | nil => exact ⟨rfl, rfl⟩
    | cons c tail =>
        have hc : isDelim c = true := by simpa using htail
        simp [hc]
  rw [splitNetloc, if_pos (by simp)]
  have hdrop : ('/' :: '/' :: (netloc ++ tail)).drop 2 = netloc ++ tail := rfl
  rw [hdrop, List.takeWhile_append_of_pos (by simpa using hnetloc),
    List.dropWhile_append_of_pos (by simpa using hnetloc), hstop.1, hstop.2, List.append_nil]

/-- What is put behind a path. -/
def suffix (query fragment : List Char) : List Char :=
  (if query = [] then [] else '?' :: query) ++ if fragment = [] then [] else '#' :: fragment

theorem splitTail_append (hpath : ∀ c ∈ path, c ≠ '?' ∧ c ≠ '#') (hquery : '#' ∉ query) :
    splitTail (path ++ suffix query fragment) = (path, query, fragment) := by
  have hask : '?' ∉ path := fun h => (hpath _ h).1 rfl
  have hhash : '#' ∉ path ++ (if query = [] then [] else '?' :: query) := by
    intro h
    rcases List.mem_append.mp h with h | h
    · exact (hpath _ h).2 rfl
    · split at h
      · cases h
      · simp [hquery] at h
  have hbefore : partition '?' (path ++ if query = [] then [] else '?' :: query) =
      (path, decide (query ≠ []), query) := by
    by_cases hnil : query = []
    · rw [if_pos hnil, List.append_nil, partition_of_not_mem hask, hnil]
      rfl
    · rw [if_neg hnil, partition_append hask]
      simp [hnil]
  unfold splitTail suffix
  rw [← List.append_assoc]
  by_cases hnil : fragment = []
  · rw [if_pos hnil, List.append_nil, partition_of_not_mem hhash]
    simp [hbefore, hnil]
  · rw [if_neg hnil, partition_append hhash]
    simp [hbefore]

end Pieces

/-- Parts as `urlsplit` reads them. -/
structure Proper (U : Unicode) (p : Parts) : Prop where
  admits : admits U p.netloc = true
  netloc : ∀ c ∈ p.netloc, isDelim c = false
  path : ∀ c ∈ p.path, c ≠ '?' ∧ c ≠ '#'
  query : '#' ∉ p.query
  breaks : ∀ c ∈ p.netloc ++ p.path ++ p.query ++ p.fragment, isBreak c = false

/-- A path that is put behind an authority. -/
def rooted (path : List Char) : List Char := if path.head? = some '/' then path else '/' :: path

/-- The path behind the network location. -/
def placed (p : Parts) : List Char := if p.netloc ≠ [] ∧ p.path ≠ [] then rooted p.path else p.path

/-- What is put before the path. -/
def authority (p : Parts) : List Char :=
  if p.netloc ≠ [] ∨ p.path = [] ∨ p.path.head? = some '/' then '/' :: '/' :: p.netloc else []

theorem urlunsplit_eq (hscheme : p.scheme = "http".toList ∨ p.scheme = "https".toList) :
    urlunsplit p = p.scheme ++ ':' ::
      (authority p ++ (placed p ++ suffix p.query p.fragment)) := by
  have hweb : p.scheme ≠ [] ∧ String.ofList p.scheme ∈ usesNetloc := by
    rcases hscheme with h | h <;> rw [h] <;> decide
  have hplace : (if p.netloc ≠ [] then
        "//".toList ++ p.netloc ++
          (if p.path ≠ [] ∧ p.path.head? ≠ some '/' then '/' :: p.path else p.path)
      else if "//".toList.isPrefixOf p.path then "//".toList ++ p.path
      else if p.scheme ≠ [] ∧ String.ofList p.scheme ∈ usesNetloc ∧
          (p.path = [] ∨ p.path.head? = some '/') then "//".toList ++ p.path
      else p.path) =
      authority p ++ placed p := by
    unfold authority
    by_cases hnetloc : p.netloc = []
    · have hplaced : placed p = p.path := if_neg fun h => h.1 hnetloc
      rw [hplaced, hnetloc]
      by_cases hpath : p.path = [] ∨ p.path.head? = some '/'
      · simp [hpath, hweb]
      · have hnot : ¬ ['/', '/'] <+: p.path := by
          rintro ⟨rest, hrest⟩
          exact hpath (.inr (by rw [← hrest]; rfl))
        simp [hpath, hnot]
    · by_cases hnil : p.path = []
      · simp [hnetloc, placed, hnil]
      · by_cases hhead : p.path.head? = some '/'
        · simp [hnetloc, placed, hnil, rooted, hhead]
        · simp [hnetloc, placed, hnil, rooted, hhead]
  unfold urlunsplit
  simp only [hplace, if_pos hweb.1, suffix]
  by_cases hquery : p.query = [] <;> by_cases hfragment : p.fragment = [] <;>
    simp [hquery, hfragment]

theorem cleaned_eq {c : Char} {cs : List Char} (hc : 32 < c.toNat)
    (h : ∀ d ∈ c :: cs, isBreak d = false) : cleaned (c :: cs) = c :: cs := by
  rw [cleaned, List.dropWhile_cons_of_neg (by simpa using hc)]
  exact List.filter_eq_self.mpr fun d hd => by simpa [isBreak] using h d hd

theorem splitScheme_web {scheme rest : List Char}
    (hscheme : scheme = "http".toList ∨ scheme = "https".toList) :
    splitScheme (scheme ++ ':' :: rest) = (scheme, rest) := by
  have hcolon : ':' ∉ scheme := by rcases hscheme with h | h <;> rw [h] <;> decide
  unfold splitScheme
  rw [partition_append hcolon]
  rcases hscheme with rfl | rfl <;> rfl

theorem mem_placed {c : Char} (h : c ∈ placed p) : c = '/' ∨ c ∈ p.path := by
  unfold placed rooted at h
  split at h
  · split at h
    · exact .inr h
    · exact List.mem_cons.mp h
  · exact .inr h

theorem mem_suffix {query fragment : List Char} {c : Char} (h : c ∈ suffix query fragment) :
    c ∈ ['?', '#'] ∨ c ∈ query ++ fragment := by
  unfold suffix at h
  by_cases hquery : query = [] <;> by_cases hfragment : fragment = [] <;>
    simp [hquery, hfragment] at h ⊢ <;> tauto

theorem placed_head (h : p.netloc ≠ [] ∨ p.path = [] ∨ p.path.head? = some '/') :
    placed p = [] ∨ (placed p).head? = some '/' := by
  unfold placed rooted
  by_cases hnil : p.path = []
  · simp [hnil]
  · by_cases hhead : p.path.head? = some '/'
    · simp [hhead]
    · simp [hnil, hhead, (h.resolve_right (by simp [hnil, hhead]))]

theorem suffix_head (query fragment : List Char) :
    suffix query fragment = [] ∨ (suffix query fragment).head?.any isDelim = true := by
  unfold suffix
  by_cases hquery : query = [] <;> by_cases hfragment : fragment = [] <;>
    simp [hquery, hfragment, isDelim]

theorem cleaned_urlunsplit (hp : Proper U p)
    (hscheme : p.scheme = "http".toList ∨ p.scheme = "https".toList) :
    cleaned (urlunsplit p) = urlunsplit p := by
  have hbreak : ∀ c ∈ urlunsplit p, isBreak c = false := by
    have hown := hp.breaks
    have hweb : ∀ c ∈ p.scheme, isBreak c = false := by
      rcases hscheme with h | h <;> rw [h] <;> simp [isBreak]
    have hask : ∀ c ∈ ['?', '#'], isBreak c = false := by simp [isBreak]
    simp only [List.forall_mem_append] at hown
    obtain ⟨⟨⟨hnetloc, hpath⟩, hquery⟩, hfragment⟩ := hown
    intro c hc
    rw [urlunsplit_eq hscheme] at hc
    simp only [List.mem_append, List.mem_cons] at hc
    rcases hc with hc | rfl | hc | hc | hc
    · exact hweb c hc
    · rfl
    · unfold authority at hc
      split at hc
      · rcases List.mem_cons.mp hc with rfl | hc
        · rfl
        · rcases List.mem_cons.mp hc with rfl | hc
          · rfl
          · exact hnetloc c hc
      · cases hc
    · rcases mem_placed hc with rfl | hc
      · rfl
      · exact hpath c hc
    · rcases mem_suffix hc with hc | hc
      · exact hask c hc
      · exact (List.mem_append.mp hc).elim (hquery c) (hfragment c)
  obtain ⟨cs, hcs⟩ : ∃ cs, urlunsplit p = 'h' :: cs := by
    rw [urlunsplit_eq hscheme]
    rcases hscheme with h | h <;> rw [h] <;> exact ⟨_, rfl⟩
  rw [hcs] at hbreak ⊢
  exact cleaned_eq (by decide) hbreak

/-- **What is put together is read again.** -/
theorem urlsplit_urlunsplit (hp : Proper U p)
    (hscheme : p.scheme = "http".toList ∨ p.scheme = "https".toList) :
    urlsplit U (urlunsplit p) = some { p with path := placed p } := by
  have hpath : ∀ c ∈ placed p, c ≠ '?' ∧ c ≠ '#' := by
    intro c hc
    rcases mem_placed hc with rfl | h
    · decide
    · exact hp.path c h
  refine urlsplit_iff.mpr ⟨authority p ++ (placed p ++ suffix p.query p.fragment),
    placed p ++ suffix p.query p.fragment, ?_, ?_, ?_, hp.admits⟩
  · rw [cleaned_urlunsplit hp hscheme, urlunsplit_eq hscheme]
    exact splitScheme_web hscheme
  · unfold authority
    split
    · rename_i hslashes
      refine splitNetloc_append hp.netloc ?_
      rcases placed_head hslashes with h | h
      · rw [h]
        exact suffix_head _ _
      · refine .inr ?_
        rw [List.head?_append, h]
        rfl
    · rename_i hslashes
      simp only [not_or, not_not] at hslashes
      obtain ⟨hnetloc, hnil, hhead⟩ := hslashes
      have hplaced : placed p = p.path := if_neg fun h => h.1 hnetloc
      rw [hplaced, List.nil_append, splitNetloc, if_neg, hnetloc]
      rw [List.isPrefixOf_iff_prefix]
      rintro ⟨rest, hrest⟩
      have h := congrArg List.head? hrest
      rw [List.head?_append_of_ne_nil _ hnil] at h
      exact hhead h.symm
  · exact splitTail_append hpath hp.query

/-- A path of characters that mean nothing else is read as it is. -/
theorem urlsplit_path {path : List Char}
    (hchars : ∀ c ∈ path, 32 < c.toNat ∧ c ≠ ':' ∧ c ≠ '?' ∧ c ≠ '#')
    (hslashes : ¬ "//".toList <+: path) : urlsplit U path = some ⟨[], [], path, [], []⟩ := by
  have hcleaned : cleaned path = path := by
    have hkeep : path.dropWhile (fun c => decide (c.toNat ≤ 32)) = path :=
      List.dropWhile_eq_self_iff.mpr fun hl => by
        simpa using (hchars _ (List.getElem_mem hl)).1
    rw [cleaned, hkeep, List.filter_eq_self]
    intro c hc
    have hbreak : ∀ d ∈ ['\t', '\r', '\n'], d.toNat ≤ 32 := by simp
    exact decide_eq_true fun h => absurd (hchars c hc).1 (Nat.not_lt.mpr (hbreak c h))
  have hcolon : ':' ∉ path := fun h => (hchars _ h).2.1 rfl
  have hask : '?' ∉ path := fun h => (hchars _ h).2.2.1 rfl
  have hhash : '#' ∉ path := fun h => (hchars _ h).2.2.2 rfl
  refine urlsplit_iff.mpr ⟨path, path, ?_, ?_, ?_, ?_⟩
  · rw [hcleaned, splitScheme, partition_of_not_mem hcolon]
    rfl
  · exact if_neg fun h => hslashes (List.isPrefixOf_iff_prefix.mp h)
  · rw [splitTail, partition_of_not_mem hhash]
    simp only [partition_of_not_mem hask]
  · simp [admits, netlocOk]

/-! ### What is lost in reading -/

section Lengths

variable {rest tail : List Char}

theorem cleaned_sublist (url : List Char) : (cleaned url).Sublist url :=
  List.filter_sublist.trans (List.dropWhile_sublist _)

theorem not_isBreak {c : Char} (h : c ∈ cleaned url) : isBreak c = false := by
  simpa [isBreak] using (List.mem_filter.mp h).2

theorem Reads.schemeless (h : Reads U url p rest tail) : rest.Sublist (cleaned url) ∧
    p.scheme.length + (if p.scheme = [] then 0 else 1) + rest.length ≤ (cleaned url).length := by
  rcases splitScheme_eq h.scheme with ⟨hscheme, rfl⟩ | ⟨before, hurl, hscheme, -, -⟩
  · simp [hscheme]
  · rw [hurl, hscheme]
    refine ⟨(List.sublist_cons_self _ _).trans (List.sublist_append_right _ _), ?_⟩
    simp only [List.length_map, List.length_append, List.length_cons]
    split <;> omega

theorem Reads.parts (h : Reads U url p rest tail) :
    (∀ c ∈ p.netloc ++ p.path ++ p.query ++ p.fragment, c ∈ rest) ∧ p.path.Sublist rest ∧
      p.netloc.length + p.path.length + p.query.length + p.fragment.length ≤ rest.length := by
  obtain ⟨post, htail, -, -, hpost, -, hmem⟩ := splitTail_eq h.tail
  have htails : (∀ c ∈ p.path ++ p.query ++ p.fragment, c ∈ tail) ∧ p.path.Sublist tail ∧
      p.path.length + p.query.length + p.fragment.length ≤ tail.length := by
    rw [htail]
    refine ⟨fun c hc => ?_, List.sublist_append_left _ _, ?_⟩
    · rw [List.append_assoc] at hc
      exact List.mem_append.mpr ((List.mem_append.mp hc).imp_right (hmem c))
    · rw [List.length_append]
      omega
  rcases splitNetloc_eq h.netloc with ⟨hnetloc, rfl, -⟩ | ⟨hrest, -, -⟩
  · simpa [hnetloc] using htails
  · obtain ⟨hchars, hsub, hlen⟩ := htails
    rw [hrest]
    refine ⟨fun c hc => ?_, ?_, ?_⟩
    · simp only [List.mem_append, List.mem_cons] at hc hchars ⊢
      rcases hc with ((hc | hc) | hc) | hc
      · exact .inr (.inr (.inl hc))
      · exact .inr (.inr (.inr (hchars c (.inl (.inl hc)))))
      · exact .inr (.inr (.inr (hchars c (.inl (.inr hc)))))
      · exact .inr (.inr (.inr (hchars c (.inr hc))))
    · exact ((hsub.trans (List.sublist_append_right _ _)).trans
        (List.sublist_cons_self _ _)).trans (List.sublist_cons_self _ _)
    · simp only [List.length_cons, List.length_append]
      omega

theorem proper_of_urlsplit (h : urlsplit U url = some p) : Proper U p := by
  obtain ⟨rest, tail, hr⟩ := urlsplit_iff.mp h
  obtain ⟨-, -, hpath, hquery, -⟩ := splitTail_eq hr.tail
  refine ⟨hr.admits, ?_, hpath, hquery, fun c hc => ?_⟩
  · rcases splitNetloc_eq hr.netloc with ⟨hnil, -⟩ | ⟨-, hdelim, -⟩
    · simp [hnil]
    · exact hdelim
  · exact not_isBreak (hr.schemeless.1.subset (hr.parts.1 c hc))

/-- The parts are no longer than the URL. -/
theorem length_parts_le (h : urlsplit U url = some p) :
    p.scheme.length + (if p.scheme = [] then 0 else 1) + p.netloc.length + p.path.length +
      p.query.length + p.fragment.length ≤ url.length := by
  obtain ⟨rest, tail, hr⟩ := urlsplit_iff.mp h
  have hscheme := hr.schemeless.2
  have hparts := hr.parts.2.2
  have hclean := (cleaned_sublist url).length_le
  omega

/-- A path that is as long as the URL is all of it. -/
theorem path_eq_of_length (h : urlsplit U url = some p) (hlen : url.length ≤ p.path.length) :
    p.path = url := by
  obtain ⟨rest, tail, hr⟩ := urlsplit_iff.mp h
  have hsub := (hr.parts.2.1.trans hr.schemeless.1).trans (cleaned_sublist url)
  exact hsub.eq_of_length_le hlen

end Lengths

end Url
