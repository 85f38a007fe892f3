import AsyncGateway.Gateway.RoundTrip
import AsyncGateway.Lib.UrlJoin
import AsyncGateway.Security.Ssrf
import Mathlib.Data.List.DropRight

/-!
# Gateway — the URL of a task

`join_url` puts a rendered path behind the base URL and compares the origins.  A path that
`urljoin` reads as one, behind a base that it reads as one, in segments that stay (`Stays`), is
the path of the URL; a path that names an origin of its own (`Foreign`) is refused.  Everything
else is joined to another resource: the id `.` is a segment that goes, and the URL is that of the
collection.
-/

namespace AsyncGateway

/-- A `ValueError` where there is none. -/
def orValueError {α : Type} (x : Option α) : Except Exn α :=
  x.elim (.error (.infrastructure "ValueError")) .ok

@[simp] theorem orValueError_some {α : Type} (a : α) : orValueError (some a) = .ok a := rfl

@[simp] theorem orValueError_none {α : Type} :
    orValueError (none : Option α) = .error (.infrastructure "ValueError") := rfl

section Join

variable (U : Unicode)

/-- The scheme, the hostname and the port; none is a `ValueError`. -/
def origin (p : Url.Parts) : Option (List Char × List Char × Option ℕ) :=
  p.port.map fun port => (p.scheme, p.hostname U, port)

/-- `base_url.rstrip("/") + "/"`. -/
def joinBase (baseUrl : String) : List Char := baseUrl.toList.rdropWhile (· = '/') ++ ['/']

/-- `path.lstrip("/")`. -/
def reference (path : List Char) : List Char := path.dropWhile (· = '/')

/-- `join_url`. -/
def joinUrl : JoinUrl := fun baseUrl path => do
  let base := joinBase baseUrl
  let url ← orValueError (Url.urljoin U base (reference path.toList))
  let baseParts ← orValueError (Url.urlsplit U base)
  let urlParts ← orValueError (Url.urlsplit U url)
  let baseOrigin ← orValueError (origin U baseParts)
  let urlOrigin ← orValueError (origin U urlParts)
  if baseOrigin ≠ urlOrigin then
    .error (.renderError ("渲染结果脱离 base_url 同源：" ++ String.ofList url))
  else .ok (String.ofList url)

variable {U} {baseUrl path : String} {url : List Char} {p r : Url.Parts}
  {o o' : List Char × List Char × Option ℕ}

/-- What `join_url` compares. -/
structure Joined (U : Unicode) (baseUrl : String) (path : List Char) (url : List Char)
    (p r : Url.Parts) (o o' : List Char × List Char × Option ℕ) : Prop where
  join : Url.urljoin U (joinBase baseUrl) (reference path) = some url
  base : Url.urlsplit U (joinBase baseUrl) = some p
  url : Url.urlsplit U url = some r
  origin : AsyncGateway.origin U p = some o
  origin' : AsyncGateway.origin U r = some o'

theorem joinUrl_eq (h : Joined U baseUrl path.toList url p r o o') : joinUrl U baseUrl path =
    if o ≠ o' then .error (.renderError ("渲染结果脱离 base_url 同源：" ++ String.ofList url))
    else .ok (String.ofList url) := by
  simp only [joinUrl, bind, Except.bind, h.join, h.base, h.url, h.origin, h.origin',
    orValueError_some]

theorem joinUrl_cases (U : Unicode) (baseUrl path : String) :
    joinUrl U baseUrl path = .error (.infrastructure "ValueError") ∨
      ∃ url p r o o', Joined U baseUrl path.toList url p r o o' := by
  simp only [joinUrl, bind, Except.bind]
  cases hjoin : Url.urljoin U (joinBase baseUrl) (reference path.toList) with
  | none => exact .inl rfl
  | some url =>
  cases hbase : Url.urlsplit U (joinBase baseUrl) with
  | none => exact .inl rfl
  | some p =>
  cases hurl : Url.urlsplit U url with
  | none => exact .inl (by simp only [orValueError_some, hurl, orValueError_none])
  | some r =>
  cases ho : origin U p with
  | none => exact .inl (by simp only [orValueError_some, hurl, ho, orValueError_none])
  | some o =>
  cases ho' : origin U r with
  | none => exact .inl (by simp only [orValueError_some, hurl, ho, ho', orValueError_none])
  | some o' => exact .inr ⟨url, p, r, o, o', hjoin, hbase, hurl, ho, ho'⟩

/-- The origin is of the scheme and the network location. -/
theorem origin_congr (hs : p.scheme = r.scheme) (hn : p.netloc = r.netloc) :
    origin U p = origin U r := by
  unfold origin Url.Parts.port Url.Parts.hostname Url.Parts.hostinfo
  rw [hs, hn]

theorem origin_eq_some : origin U p = some o ↔
    o.1 = p.scheme ∧ o.2.1 = p.hostname U ∧ p.port = some o.2.2 := by
  unfold origin
  rw [Option.map_eq_some_iff]
  constructor
  · rintro ⟨port, hport, rfl⟩
    exact ⟨rfl, rfl, hport⟩
  · rintro ⟨hs, hh, hport⟩
    exact ⟨_, hport, by rw [← hs, ← hh]⟩

end Join

/-! ### Where a path is joined -/

section Landing

variable {U : Unicode} {baseUrl : String} {path stem last url : List Char} {b p q r : Url.Parts}

/-- The parts of a base URL, and with the slash behind it. -/
structure BaseRead (U : Unicode) (baseUrl : String) (b p : Url.Parts) : Prop where
  read : Url.urlsplit U baseUrl.toList = some b
  slashed : Url.urlsplit U (joinBase baseUrl) = some p
  web : Url.Web p.scheme
  scheme : p.scheme = b.scheme
  netloc : p.netloc = b.netloc
  head : b.path = [] ∨ b.path.head? = some '/'
  path : p.path = if '?' ∈ baseUrl.toList ∨ '#' ∈ baseUrl.toList then b.path else b.path ++ ['/']

/-- What `_base_url_shape` leaves. -/
structure WebBase (baseUrl : String) : Prop where
  web : ∃ scheme x, Url.Web scheme ∧ baseUrl.toList = scheme ++ ':' :: '/' :: '/' :: x
  slashed : joinBase baseUrl = baseUrl.toList ++ ['/']

theorem WebBase.read (h : WebBase baseUrl) (hb : Url.urlsplit U baseUrl.toList = some b) :
    ∃ p, BaseRead U baseUrl b p := by
  obtain ⟨scheme, x, hscheme, hx⟩ := h.web
  have hslashed := h.slashed
  have hsplit := hb
  rw [hx] at hsplit hslashed
  obtain ⟨p, hp, hs, hn, hhead, hpath⟩ := Url.urlsplit_slash hscheme hsplit
  have hbs := (Url.reads_web hscheme hsplit).1
  have hnot : '?' ∉ scheme ∧ '#' ∉ scheme := by rcases hscheme with rfl | rfl <;> decide
  refine ⟨p, hb, hslashed ▸ hp, by rwa [hs, hbs], hs, hn, hhead, ?_⟩
  rw [hpath, hx]
  simp [hnot]

theorem WebBase.exists_read (h : WebBase baseUrl)
    (hp : Url.urlsplit U (joinBase baseUrl) = some p) : ∃ b, BaseRead U baseUrl b p := by
  obtain ⟨scheme, x, hscheme, hx⟩ := h.web
  have hslash := hp
  rw [h.slashed, hx] at hslash
  obtain ⟨b, hb⟩ := Url.urlsplit_of_slash hscheme hslash
  rw [← hx] at hb
  obtain ⟨p', hread⟩ := h.read hb
  obtain rfl : p' = p := by
    rw [← Option.some_inj, ← hread.slashed, hp]
  exact ⟨b, hread⟩

theorem reference_last (hne : last ≠ []) (hslash : '/' ∉ last) :
    reference (stem ++ '/' :: last) = last ∨
      ∃ dir, reference (stem ++ '/' :: last) = dir ++ '/' :: last := by
  unfold reference
  rw [List.dropWhile_append]
  split
  · refine .inl ?_
    obtain ⟨c, cs, rfl⟩ := List.exists_cons_of_ne_nil hne
    rw [List.dropWhile_cons_of_pos (by simp), List.dropWhile_cons_of_neg]
    simpa using fun h : c = '/' => hslash (h ▸ List.mem_cons_self)
  · exact .inr ⟨_, rfl⟩

theorem head_reference (path : List Char) : (reference path).head? ≠ some '/' := by
  intro h
  have hhead := List.head?_dropWhile_not (fun c : Char => decide (c = '/')) path
  unfold reference at h
  rw [h] at hhead
  simp at hhead

theorem length_reference (hhead : path.head? = some '/') :
    (reference path).length + 1 ≤ path.length ∧
      (path.length = (reference path).length + 1 → path = '/' :: reference path) := by
  obtain ⟨cs, rfl⟩ : ∃ cs, path = '/' :: cs := by
    cases path with
    | nil => cases hhead
    | cons c cs => exact ⟨cs, by rw [Option.some.inj hhead]⟩
  have hsub : (cs.dropWhile (· = '/')).Sublist cs := List.dropWhile_sublist _
  unfold reference
  rw [List.dropWhile_cons_of_pos (by simp), List.length_cons]
  refine ⟨Nat.succ_le_succ hsub.length_le, fun h => ?_⟩
  rw [hsub.eq_of_length_le (by omega)]

/-- A path is read as one, in segments that stay, behind a base that is read as one. -/
structure Stays (baseUrl : String) (path : List Char) (b q : Url.Parts) : Prop where
  whole : path = '/' :: q.path
  base : b.path = [] ∨ ('?' ∉ baseUrl.toList ∧ '#' ∉ baseUrl.toList)
  plain : Url.Plain ((b.path ++ path).splitOn '/')

/-- A path names another scheme or another host and port. -/
def Foreign (U : Unicode) (b q : Url.Parts) : Prop :=
  q.port ≠ none ∧ ((q.scheme ≠ [] ∧ q.scheme ≠ b.scheme) ∨
    (q.netloc ≠ [] ∧ origin U { q with scheme := b.scheme } ≠ origin U b))

/-- What becomes of a path that is joined. -/
inductive Landing (U : Unicode) (baseUrl : String) (path : List Char) (b q r : Url.Parts) : Prop
  | foreign (hs : q.scheme ≠ [] ∧ q.scheme ≠ b.scheme) (hr : r = q)
  | elsewhere (hs : ¬ (q.scheme ≠ [] ∧ q.scheme ≠ b.scheme)) (hn : q.netloc ≠ [])
      (scheme : r.scheme = b.scheme) (netloc : r.netloc = q.netloc)
      (short : r.path.length < path.length)
  | relative (hs : ¬ (q.scheme ≠ [] ∧ q.scheme ≠ b.scheme)) (hn : q.netloc = [])
      (scheme : r.scheme = b.scheme) (netloc : r.netloc = b.netloc)
      (path_iff : r.path = b.path ++ path ↔ Stays baseUrl path b q)

/-- A base with a query or a fragment loses its last segment to what is put behind it. -/
theorem BaseRead.dirname (h : BaseRead U baseUrl b p) : Url.dirname p.path <+: b.path ∧
    (Url.dirname p.path = b.path ↔
      b.path = [] ∨ ('?' ∉ baseUrl.toList ∧ '#' ∉ baseUrl.toList)) := by
  have hpath := h.path
  by_cases hclear : '?' ∈ baseUrl.toList ∨ '#' ∈ baseUrl.toList
  · rw [if_pos hclear] at hpath
    rw [hpath, or_iff_left (by rwa [← not_or, not_not])]
    rcases h.head with hnil | hslash
    · rw [hnil]
      exact ⟨List.prefix_rfl, iff_of_true rfl rfl⟩
    · obtain ⟨dir, last, heq, hlast⟩ := Url.exists_last (List.mem_of_head? hslash)
      rw [heq, Url.dirname_append hlast]
      exact ⟨List.prefix_append _ _, iff_of_false (by simp) (by simp)⟩
  · rw [if_neg hclear] at hpath
    rw [hpath, Url.dirname_append (List.not_mem_nil)]
    exact ⟨List.prefix_rfl, iff_of_true rfl (.inr (not_or.mp hclear))⟩

theorem BaseRead.head' (h : BaseRead U baseUrl b p) :
    p.path = [] ∨ p.path.head? = some '/' := by
  rw [h.path]
  split
  · exact h.head
  · refine .inr ?_
    rcases h.head with hnil | hhead
    · rw [hnil]
      rfl
    · rw [List.head?_append, hhead]
      rfl

theorem BaseRead.length_le (h : BaseRead U baseUrl b p) :
    p.path.length ≤ b.path.length + 1 := by
  rw [h.path]
  split <;> simp

/-- A path behind the base is as long as both only where nothing goes. -/
theorem path_iff_stays (hread : BaseRead U baseUrl b p) (hhead : path.head? = some '/')
    (hq : Url.urlsplit U (reference path) = some q)
    (hlong : p.path.length < b.path.length + path.length)
    (hlen : r.path.length ≤
      max p.path.length ((Url.dirname p.path).length + 1 + q.path.length))
    (hcases : q.path = reference path →
      (Url.Plain ((Url.dirname p.path ++ '/' :: q.path).splitOn '/') ∧
          r.path = Url.dirname p.path ++ '/' :: q.path) ∨
        (¬ Url.Plain ((Url.dirname p.path ++ '/' :: q.path).splitOn '/') ∧
          r.path.length < (Url.dirname p.path).length + 1 + q.path.length)) :
    r.path = b.path ++ path ↔ Stays baseUrl path b q := by
  have hparts := Url.length_parts_le hq
  obtain ⟨href, hwhole⟩ := length_reference hhead
  obtain ⟨hdir, hbase⟩ := hread.dirname
  have hle := hdir.length_le
  constructor
  · intro hr
    rw [hr, List.length_append] at hlen hcases
    have hmax := (le_max_iff.mp hlen).resolve_left (Nat.not_le.mpr hlong)
    have hpath : q.path = reference path := Url.path_eq_of_length hq (by omega)
    have hslash : path = '/' :: reference path := hwhole (by omega)
    have hd : Url.dirname p.path = b.path := hdir.eq_of_length (by omega)
    have hput : b.path ++ path = Url.dirname p.path ++ '/' :: q.path := by
      rw [hd, hpath, ← hslash]
    rcases hcases hpath with ⟨hplain, -⟩ | ⟨-, hlt⟩
    · exact ⟨by rw [hpath]; exact hslash, hbase.mp hd, hput ▸ hplain⟩
    · omega
  · rintro ⟨hpath, hclear, hplain⟩
    have hlength := congrArg List.length hpath
    rw [List.length_cons] at hlength
    rw [hpath, ← hbase.mpr hclear] at hplain ⊢
    rcases hcases (Url.path_eq_of_length hq (by omega)) with ⟨-, hr⟩ | ⟨hnot, -⟩
    · exact hr
    · exact absurd hplain hnot

/-- **What `urljoin` makes of a path that ends in a segment of its own.** -/
theorem exists_landing (hread : BaseRead U baseUrl b p) (hpath : path = stem ++ '/' :: last)
    (hhead : path.head? = some '/') (hne : last ≠ []) (hslash : '/' ∉ last) (hsemi : ';' ∉ last)
    (hq : Url.urlsplit U (reference path) = some q) :
    ∃ url r, Url.urljoin U (joinBase baseUrl) (reference path) = some url ∧
      Url.urlsplit U url = some r ∧ Landing U baseUrl path b q r := by
  have hbase : joinBase baseUrl ≠ [] := by simp [joinBase]
  have hlast := @reference_last stem last hne hslash
  rw [← hpath] at hlast
  have href : reference path ≠ [] := by
    rcases hlast with h | ⟨dir, h⟩ <;> rw [h]
    · exact hne
    · simp
  have hparams : Url.splitParams (reference path) = (reference path, []) := by
    rcases hlast with h | ⟨dir, h⟩ <;> rw [h]
    · exact (@Url.splitParams_of_last [] last hslash hsemi).1
    · exact (Url.splitParams_of_last hslash hsemi).2
  have hparts := Url.length_parts_le hq
  have hshort := (length_reference hhead).1
  by_cases hs : q.scheme ≠ [] ∧ q.scheme ≠ b.scheme
  · exact ⟨_, q, Url.urljoin_foreign hbase href hread.slashed hread.web hq hs.1
      (hread.scheme ▸ hs.2), hq, .foreign hs rfl⟩
  have hs' : q.scheme = [] ∨ q.scheme = p.scheme := by
    rw [hread.scheme]
    tauto
  by_cases hn : q.netloc = []
  · obtain ⟨url, r, hjoin, hr, hscheme, hnetloc, hlen, hcases⟩ := Url.urljoin_relative hbase href
      hread.slashed hread.web hread.head' hq hs' hn
    refine ⟨url, r, hjoin, hr, .relative hs hn (hscheme.trans hread.scheme)
      (hnetloc.trans hread.netloc) (path_iff_stays hread hhead hq ?_ hlen fun hwhole => ?_)⟩
    · have hle := hread.length_le
      have hpos := List.length_pos_of_ne_nil href
      omega
    · exact hcases (by rw [hwhole]; exact hparams) (by rw [hwhole]; exact href)
        (by rw [hwhole]; exact head_reference path)
  · obtain ⟨url, r, hjoin, hr, hscheme, hnetloc, hlen⟩ := Url.urljoin_netloc hbase href
      hread.slashed hread.web hq hs' hn
    exact ⟨url, r, hjoin, hr, .elsewhere hs hn (hscheme.trans hread.scheme) hnetloc (by omega)⟩

/-- A path is refused, or joined behind the base at its origin. -/
def Lands (U : Unicode) (baseUrl : String) (path : List Char) : Prop :=
  (∃ message, joinUrl U baseUrl (String.ofList path) = .error (.renderError message)) ∨
    ∃ url b r, joinUrl U baseUrl (String.ofList path) = .ok url ∧
      Url.urlsplit U baseUrl.toList = some b ∧ Url.urlsplit U url.toList = some r ∧
      (r.scheme = b.scheme ∧ r.hostname U = b.hostname U ∧ r.port = b.port) ∧
      r.path = b.path ++ path

theorem lands_of_join (hread : BaseRead U baseUrl b p)
    (hjoin : Url.urljoin U (joinBase baseUrl) (reference path) = some url)
    (hr : Url.urlsplit U url = some r) :
    Lands U baseUrl path ↔ ∃ o o', origin U b = some o ∧ origin U r = some o' ∧
      (o = o' → r.path = b.path ++ path) := by
  have horigin : origin U p = origin U b := origin_congr hread.scheme hread.netloc
  have hjoin' := hjoin
  rw [← String.toList_ofList (l := path)] at hjoin'
  constructor
  · intro h
    -- a URL of another origin is refused, whatever its path
    rcases joinUrl_cases U baseUrl (String.ofList path) with herr | ⟨url', p', r', o, o', hj⟩
    · unfold Lands at h
      rw [herr] at h
      simp at h
    · obtain rfl : url' = url := Option.some.inj (hj.join.symm.trans hjoin')
      obtain rfl : r' = r := Option.some.inj (hj.url.symm.trans hr)
      obtain rfl : p' = p := Option.some.inj (hj.base.symm.trans hread.slashed)
      refine ⟨o, o', horigin ▸ hj.origin, hj.origin', fun ho => ?_⟩
      have hok := joinUrl_eq hj
      rw [if_neg (not_not.mpr ho)] at hok
      rcases h with ⟨message, herr⟩ | ⟨url'', b', r'', hok', hb', hr'', -, hpath⟩
      · rw [hok] at herr
        cases herr
      · rw [hok, Except.ok.injEq] at hok'
        rw [← hok', String.toList_ofList] at hr''
        obtain rfl : r'' = r' := Option.some.inj (hr''.symm.trans hr)
        obtain rfl : b' = b := Option.some.inj (hb'.symm.trans hread.read)
        exact hpath
  · rintro ⟨o, o', ho, ho', hpath⟩
    have hj : Joined U baseUrl (String.ofList path).toList url p r o o' :=
      ⟨hjoin', hread.slashed, hr, horigin ▸ ho, ho'⟩
    have heq := joinUrl_eq hj
    by_cases hsame : o = o'
    · rw [if_neg (not_not.mpr hsame)] at heq
      subst hsame
      obtain ⟨hs, hh, hport⟩ := origin_eq_some.mp ho
      obtain ⟨hs', hh', hport'⟩ := origin_eq_some.mp ho'
      refine .inr ⟨_, b, r, heq, hread.read, ?_, ⟨?_, ?_, ?_⟩, hpath rfl⟩
      · rw [String.toList_ofList]
        exact hr
      · rw [← hs, ← hs']
      · rw [← hh, ← hh']
      · rw [hport, hport']
    · rw [if_pos hsame] at heq
      exact .inl ⟨_, heq⟩

theorem port_ne_none : p.port ≠ none ↔ ∃ o, origin U p = some o := by
  unfold origin
  rw [Option.ne_none_iff_exists']
  simp only [Option.map_eq_some_iff]
  exact ⟨fun ⟨port, h⟩ => ⟨_, port, h, rfl⟩, fun ⟨_, port, h, _⟩ => ⟨port, h⟩⟩

theorem Stays.relative (h : Stays baseUrl path b q) (hhead : path.head? = some '/')
    (hq : Url.urlsplit U (reference path) = some q) : q.scheme = [] ∧ q.netloc = [] := by
  have hparts := Url.length_parts_le hq
  have href := (length_reference hhead).1
  have hlength := congrArg List.length h.whole
  rw [List.length_cons] at hlength
  exact ⟨List.eq_nil_of_length_eq_zero (by omega), List.eq_nil_of_length_eq_zero (by omega)⟩

theorem Landing.lands_iff (hland : Landing U baseUrl path b q r)
    (hhead : path.head? = some '/') (hq : Url.urlsplit U (reference path) = some q) :
    (∃ o o', origin U b = some o ∧ origin U r = some o' ∧ (o = o' → r.path = b.path ++ path)) ↔
      b.port ≠ none ∧ (Foreign U b q ∨ Stays baseUrl path b q) := by
  cases hland with
  | foreign hs hr =>
      subst hr
      have hstays : ¬ Stays baseUrl path b r := fun h => hs.1 (h.relative hhead hq).1
      rw [or_iff_left hstays, Foreign, and_iff_left (Or.inl hs), @port_ne_none U b,
        @port_ne_none U r]
      constructor
      · rintro ⟨o, o', ho, ho', -⟩
        exact ⟨⟨o, ho⟩, ⟨o', ho'⟩⟩
      · rintro ⟨⟨o, ho⟩, ⟨o', ho'⟩⟩
        refine ⟨o, o', ho, ho', fun heq => absurd ?_ hs.2⟩
        rw [← (origin_eq_some.mp ho).1, ← (origin_eq_some.mp ho').1, heq]
  | elsewhere hs hn scheme netloc short =>
      have hstays : ¬ Stays baseUrl path b q := fun h => hn (h.relative hhead hq).2
      have horigin : origin U r = origin U { q with scheme := b.scheme } :=
        origin_congr scheme netloc
      have hport : q.port ≠ none ↔ ∃ o, origin U r = some o := by
        rw [horigin, ← port_ne_none]
        rfl
      rw [or_iff_left hstays, Foreign, or_iff_right hs, and_iff_right hn, ← horigin, hport,
        @port_ne_none U b]
      constructor
      · rintro ⟨o, o', ho, ho', hpath⟩
        refine ⟨⟨o, ho⟩, ⟨o', ho'⟩, fun heq => ?_⟩
        rw [ho, ho', Option.some_inj] at heq
        -- the path left is too short to be both
        have hlength := congrArg List.length (hpath heq.symm)
        rw [List.length_append] at hlength
        omega
      · rintro ⟨⟨o, ho⟩, ⟨o', ho'⟩, hne⟩
        exact ⟨o, o', ho, ho', fun heq => absurd (by rw [ho, ho', heq]) hne⟩
  | relative hs hn scheme netloc path_iff =>
      have hforeign : ¬ Foreign U b q := fun h => h.2.elim hs fun h => h.1 hn
      have horigin : origin U r = origin U b := origin_congr scheme netloc
      rw [or_iff_right hforeign, ← path_iff, horigin, @port_ne_none U b]
      constructor
      · rintro ⟨o, o', ho, ho', hpath⟩
        exact ⟨⟨o, ho⟩, hpath (Option.some.inj (ho.symm.trans ho'))⟩
      · rintro ⟨⟨o, ho⟩, hpath⟩
        exact ⟨o, o, ho, ho, fun _ => hpath⟩

/-- **A path lands just where it names another origin or stays whole.** -/
theorem lands_iff (hweb : WebBase baseUrl) (hpath : path = stem ++ '/' :: last)
    (hhead : path.head? = some '/') (hne : last ≠ []) (hslash : '/' ∉ last) (hsemi : ';' ∉ last) :
    Lands U baseUrl path ↔ ∃ b q, Url.urlsplit U baseUrl.toList = some b ∧ b.port ≠ none ∧
      Url.urlsplit U (reference path) = some q ∧ (Foreign U b q ∨ Stays baseUrl path b q) := by
  have hbase : joinBase baseUrl ≠ [] := by simp [joinBase]
  have href : reference path ≠ [] := by
    have hlast := @reference_last stem last hne hslash
    rw [← hpath] at hlast
    rcases hlast with h | ⟨dir, h⟩ <;> rw [h]
    · exact hne
    · simp
  constructor
  · intro h
    rcases joinUrl_cases U baseUrl (String.ofList path) with herr | ⟨url, p, r, o, o', hj⟩
    · unfold Lands at h
      rw [herr] at h
      simp at h
    · obtain ⟨b, hread⟩ := hweb.exists_read hj.base
      have hjoin := hj.join
      rw [String.toList_ofList] at hjoin
      obtain ⟨q, hq⟩ := Url.exists_of_urljoin hbase href hjoin
      obtain ⟨url', r', hjoin', hr', hland⟩ :=
        exists_landing hread hpath hhead hne hslash hsemi hq
      obtain ⟨hport, hcases⟩ :=
        (hland.lands_iff hhead hq).mp ((lands_of_join hread hjoin' hr').mp h)
      exact ⟨b, q, hread.read, hport, hq, hcases⟩
  · rintro ⟨b, q, hb, hport, hq, h⟩
    obtain ⟨p, hread⟩ := hweb.read hb
    obtain ⟨url, r, hjoin, hr, hland⟩ := exists_landing hread hpath hhead hne hslash hsemi hq
    exact (lands_of_join hread hjoin hr).mpr ((hland.lands_iff hhead hq).mpr ⟨hport, h⟩)

end Landing

/-! ### The query of a task -/

theorem renderError_of_sanitize {raw : String} {x : Exn} (h : sanitize raw = .error x) :
    ∃ message, x = .renderError message := by
  simp only [sanitize] at h
  split at h
  · exact ⟨_, (Except.error.inj h).symm⟩
  · split at h
    · exact ⟨_, (Except.error.inj h).symm⟩
    · split at h
      · exact ⟨_, (Except.error.inj h).symm⟩
      · cases h

theorem renderError_of_renderPath {template id : String} {x : Exn}
    (hplace : ResolvedTemplate.hasIdPlaceholder template = true)
    (h : renderPath template id = .error x) : ∃ message, x = .renderError message := by
  unfold renderPath at h
  rw [if_pos hplace] at h
  cases hs : sanitize id with
  | error y =>
      simp only [hs, bind, Except.bind, Except.error.injEq] at h
      exact h ▸ renderError_of_sanitize hs
  | ok safe =>
      simp only [hs, bind, Except.bind] at h
      split at h
      · exact ⟨_, (Except.error.inj h).symm⟩
      · split at h
        · exact ⟨_, (Except.error.inj h).symm⟩
        · cases h

/-- The query of an id is refused with a `RenderError`, or goes to the origin of the base URL, at
its path with the filled in one behind it, where the id is the last segment. -/
def AddressesOne (U : Unicode) (t : ResolvedTemplate) (id : String) : Prop :=
  (∃ message, renderGet (joinUrl U) t id = .error (.renderError message)) ∨
    ∃ req path b r, renderGet (joinUrl U) t id = .ok req ∧
      renderPath t.getPathTemplate id = .ok path ∧
      Url.urlsplit U t.baseUrl.toList = some b ∧ Url.urlsplit U req.url.toList = some r ∧
      (r.scheme = b.scheme ∧ r.hostname U = b.hostname U ∧ r.port = b.port) ∧
      r.path = b.path ++ path.toList ∧ (r.path.splitOn '/').getLast? = some id.toList

/-- The id is refused for itself or for the path it is filled into, or that path names another
origin, or is joined as it is. -/
def Addressable (U : Unicode) (t : ResolvedTemplate) (id : String) : Prop :=
  let path := fillId id.toList t.getPathTemplate.toList
  SafeId id.toList → Clean path →
    ∃ b q, Url.urlsplit U t.baseUrl.toList = some b ∧ b.port ≠ none ∧
      Url.urlsplit U (reference path) = some q ∧ (Foreign U b q ∨ Stays t.baseUrl path b q)

namespace ValidatedTemplate

variable {U : Unicode} {t : ValidatedTemplate} {id : String}

theorem webBase (t : ValidatedTemplate) : WebBase t.baseUrl := by
  obtain ⟨v, hv⟩ := t.baseUrl_shape
  simp only [baseUrlShape] at hv
  have hdrop : ((Text.strip v.toList).reverse.dropWhile (· = '/')).reverse =
      (Text.strip v.toList).rdropWhile (· = '/') := rfl
  rw [hdrop] at hv
  obtain ⟨hbase, hweb⟩ : t.baseUrl = String.ofList ((Text.strip v.toList).rdropWhile (· = '/')) ∧
      ("http://".toList <+: (Text.strip v.toList).rdropWhile (· = '/') ∨
        "https://".toList <+: (Text.strip v.toList).rdropWhile (· = '/')) := by
    split at hv
    · rename_i hhttp
      split at hv
      · cases hv
      · exact ⟨(Option.some.inj hv).symm, .inl (List.isPrefixOf_iff_prefix.mp hhttp)⟩
    · split at hv
      · rename_i hhttps
        split at hv
        · cases hv
        · exact ⟨(Option.some.inj hv).symm, .inr (List.isPrefixOf_iff_prefix.mp hhttps)⟩
      · cases hv
  refine ⟨?_, ?_⟩
  · rw [hbase, String.toList_ofList]
    rcases hweb with ⟨x, hx⟩ | ⟨x, hx⟩
    · exact ⟨"http".toList, x, .inl rfl, hx.symm⟩
    · exact ⟨"https".toList, x, .inr rfl, hx.symm⟩
  · rw [joinBase, hbase, String.toList_ofList, List.rdropWhile_idempotent]

theorem fillId_get {stem : List Char}
    (hstem : t.getPathTemplate.toList = stem ++ "/{id}".toList) (id : List Char) :
    fillId id t.getPathTemplate.toList = fillId id stem ++ '/' :: id := by
  have hplace : fillId id "/{id}".toList = '/' :: id := by
    have hnot : ¬ idPlace <+: '/' :: idPlace := by decide
    have hfill := @fillId_place id []
    rw [List.append_nil, fillId_nil, List.append_nil] at hfill
    exact (fillId_char hnot).trans (congrArg _ hfill)
  rw [hstem, fillId_append (by simp), hplace]

theorem renderGet_cases (t : ValidatedTemplate) (U : Unicode) (id : String) :
    (¬ (SafeId id.toList ∧ Clean (fillId id.toList t.getPathTemplate.toList)) ∧
        ∃ message, renderGet (joinUrl U) t.toResolvedTemplate id =
          .error (.renderError message)) ∨
      (SafeId id.toList ∧ Clean (fillId id.toList t.getPathTemplate.toList) ∧
        renderPath t.getPathTemplate id =
          .ok (String.ofList (fillId id.toList t.getPathTemplate.toList)) ∧
        renderGet (joinUrl U) t.toResolvedTemplate id =
          (joinUrl U t.baseUrl
            (String.ofList (fillId id.toList t.getPathTemplate.toList))).map fun url =>
              { method := t.getMethod, url := url,
                headers := baseHeaders t.toResolvedTemplate }) := by
  have hiff := fun path => @renderPath_eq_ok t.getPathTemplate id path t.hasIdPlaceholder_get
  unfold renderGet
  cases hpath : renderPath t.getPathTemplate id with
  | error x =>
      obtain ⟨message, rfl⟩ := renderError_of_renderPath t.hasIdPlaceholder_get hpath
      refine .inl ⟨fun ⟨hsafe, hclean⟩ => ?_, message, rfl⟩
      have hok := (hiff _).mpr ⟨hsafe, hclean, rfl⟩
      rw [hpath] at hok
      cases hok
  | ok path =>
      obtain ⟨hsafe, hclean, rfl⟩ := (hiff path).mp hpath
      refine .inr ⟨hsafe, hclean, rfl, ?_⟩
      rfl

theorem addressesOne_iff (hends : "/{id}".toList <:+ t.getPathTemplate.toList) (id : String) :
    AddressesOne U t.toResolvedTemplate id ↔ Addressable U t.toResolvedTemplate id := by
  rcases t.renderGet_cases U id with ⟨hrefused, message, hget⟩ | ⟨hsafe, hclean, hpath, hget⟩
  · exact iff_of_true (.inl ⟨message, hget⟩)
      fun hsafe hclean => absurd ⟨hsafe, hclean⟩ hrefused
  obtain ⟨stem, hget'⟩ := hends
  have hstem := fillId_get hget'.symm id.toList
  have hslash : '/' ∉ id.toList := fun h => absurd (hsafe.unreserved _ h) (by decide)
  have hsemi : ';' ∉ id.toList := fun h => absurd (hsafe.unreserved _ h) (by decide)
  have hlast : ∀ dir : List Char, ((dir ++ '/' :: id.toList).splitOn '/').getLast? =
      some id.toList := by
    intro dir
    rw [List.splitOn_append_cons_self, List.splitOn_eq_singleton hslash]
    simp
  have hlands := lands_iff (U := U) t.webBase hstem (head_fillId t.head_getPath) hsafe.ne_nil
    hslash hsemi
  have haddress : Addressable U t.toResolvedTemplate id ↔ _ :=
    ⟨fun h => h hsafe hclean, fun h _ _ => h⟩
  rw [haddress, ← hlands]
  unfold AddressesOne Lands
  rw [hget, hpath]
  cases hjoin : joinUrl U t.baseUrl
      (String.ofList (fillId id.toList t.getPathTemplate.toList)) with
  | error x => simp [Except.map]
  | ok url =>
      simp only [Except.map, Except.ok.injEq, reduceCtorEq, exists_false, false_or]
      constructor
      · rintro ⟨req, path, b, r, rfl, rfl, hb, hr, horigin, hwhole, -⟩
        exact ⟨url, b, r, rfl, hb, hr, horigin, by rw [hwhole, String.toList_ofList]⟩
      · rintro ⟨url', b, r, rfl, hb, hr, horigin, hwhole⟩
        refine ⟨_, _, b, r, rfl, rfl, hb, hr, horigin, by rw [hwhole, String.toList_ofList], ?_⟩
        rw [hwhole, hstem, ← List.append_assoc]
        exact hlast _

/-- A template whose base URL and path are read as they are written. -/
structure Ordinary (U : Unicode) (t : ValidatedTemplate) (b : Url.Parts) (stem : List Char) :
    Prop where
  read : Url.urlsplit U t.baseUrl.toList = some b
  port : b.port ≠ none
  base : '?' ∉ t.baseUrl.toList ∧ '#' ∉ t.baseUrl.toList
  get : t.getPathTemplate.toList = stem ++ "/{id}".toList
  chars : ∀ c ∈ stem, unreserved c = true ∨ c = '/'
  dots : ¬ ['.', '.'] <:+: stem
  segments : ∀ seg ∈ ((b.path ++ stem).splitOn '/').drop 1, seg ≠ [] ∧ Url.isDots seg = false

variable {b : Url.Parts} {stem : List Char}

theorem Ordinary.fill (h : Ordinary U t b stem) (id : List Char) :
    fillId id t.getPathTemplate.toList = stem ++ '/' :: id := by
  have hopen : '{' ∉ stem := fun hc => absurd (h.chars _ hc) (by decide)
  rw [fillId_get h.get, fillId_of_not_mem hopen]

/-- The segments of the base and the path, with the id behind them. -/
theorem Ordinary.splitOn_path (h : Ordinary U t b stem) {last : List Char} (hslash : '/' ∉ last) :
    ∃ segs, (b.path ++ (stem ++ '/' :: last)).splitOn '/' = [] :: (segs ++ [last]) ∧
      ∀ seg ∈ segs, seg ≠ [] ∧ Url.isDots seg = false := by
  obtain ⟨p, hread⟩ := t.webBase.read h.read
  have hstem : stem = [] ∨ stem.head? = some '/' := by
    refine or_iff_not_imp_left.mpr fun hne => ?_
    have hhead := t.head_getPath
    rwa [h.get, List.head?_append_of_ne_nil _ hne] at hhead
  have hsplit : ((b.path ++ stem).splitOn '/').head? = some [] := by
    rcases hread.head with hnil | hhead
    · rcases hstem with hnil' | hhead'
      · rw [hnil, hnil']
        rfl
      · rw [hnil]
        exact (Url.splitOn_rooted hhead').1
    · refine (Url.splitOn_rooted ?_).1
      rw [List.head?_append, hhead]
      rfl
  obtain ⟨segs, hsegs⟩ : ∃ segs, (b.path ++ stem).splitOn '/' = [] :: segs := by
    cases hs : (b.path ++ stem).splitOn '/' with
    | nil => exact absurd hs (List.splitOn_ne_nil _ _)
    | cons seg segs =>
        rw [hs] at hsplit
        exact ⟨segs, by rw [Option.some.inj hsplit]⟩
  refine ⟨segs, ?_, fun seg hseg => h.segments seg ?_⟩
  · rw [← List.append_assoc, List.splitOn_append_cons_self, hsegs,
      List.splitOn_eq_singleton hslash]
    rfl
  · rw [hsegs]
    exact hseg

theorem Ordinary.whole (h : Ordinary U t b stem) {last : List Char} (hslash : '/' ∉ last) :
    stem ++ '/' :: last = '/' :: reference (stem ++ '/' :: last) := by
  have hdrop : ∀ cs : List Char, cs.head? ≠ some '/' →
      '/' :: cs = '/' :: reference ('/' :: cs) := by
    intro cs hcs
    unfold reference
    rw [List.dropWhile_cons_of_pos (by simp)]
    cases cs with
    | nil => rfl
    | cons c cs => rw [List.dropWhile_cons_of_neg (by simpa using hcs)]
  cases hstem : stem with
  | nil => exact hdrop last fun hhead => hslash (List.mem_of_head? hhead)
  | cons c rest =>
      have hhead := t.head_getPath
      rw [h.get, hstem] at hhead
      obtain rfl : c = '/' := Option.some.inj hhead
      refine hdrop (rest ++ '/' :: last) fun hhead' => ?_
      have hsegs := h.segments
      rw [hstem, List.splitOn_append_cons_self] at hsegs
      have hseg : ∀ seg ∈ rest.splitOn '/', seg ≠ [] := fun seg hseg => (hsegs seg (by
        rw [List.drop_append_of_le_length (List.length_pos_iff.mpr (List.splitOn_ne_nil _ _))]
        exact List.mem_append_right _ hseg)).1
      cases rest with
      | nil => exact hseg [] (by simp) rfl
      | cons d rest =>
          obtain rfl : d = '/' := Option.some.inj hhead'
          refine hseg [] ?_ rfl
          exact List.mem_of_head? (Url.splitOn_rooted rfl).1

theorem Ordinary.read_path (h : Ordinary U t b stem) {last : List Char}
    (hlast : ∀ c ∈ last, unreserved c = true) : Url.urlsplit U (reference (stem ++ '/' :: last)) =
      some ⟨[], [], reference (stem ++ '/' :: last), [], []⟩ := by
  have hun : ∀ c, unreserved c = true ∨ c = '/' → 32 < c.toNat ∧ c ≠ ':' ∧ c ≠ '?' ∧ c ≠ '#' := by
    rintro c (hc | rfl)
    · have hrange := unreserved_range hc
      refine ⟨by omega, ?_, ?_, ?_⟩ <;> rintro rfl <;> exact absurd hc (by decide)
    · decide
  refine Url.urlsplit_path (fun c hc => hun c ?_) ?_
  · have hmem := (List.dropWhile_sublist _).subset hc
    rcases List.mem_append.mp hmem with hc | hc
    · exact h.chars c hc
    · exact (List.mem_cons.mp hc).symm.imp_left (hlast c)
  · rintro ⟨rest, hrest⟩
    refine head_reference (stem ++ '/' :: last) ?_
    rw [← hrest]
    rfl

/-- **With an ordinary template it is the one id.** -/
theorem Ordinary.addressable_iff (h : Ordinary U t b stem) :
    Addressable U t.toResolvedTemplate id ↔ id ≠ "." := by
  constructor
  · rintro haddress rfl
    have hfill := h.fill ".".toList
    have hsafe : SafeId ".".toList :=
      ⟨by decide, by simp [List.infix_cons_iff], by simp [unreserved], by decide⟩
    have hclean : Clean (fillId ".".toList t.getPathTemplate.toList) := by
      rw [hfill]
      refine ⟨fun hc => ?_, fun hc => ?_, noDots_append h.dots ?_ (.inr (by decide))⟩
      · rcases List.mem_append.mp hc with hc | hc
        · exact absurd (h.chars _ hc) (by decide)
        · exact absurd hc (by decide)
      · rcases List.mem_append.mp hc with hc | hc
        · exact absurd (h.chars _ hc) (by decide)
        · exact absurd hc (by decide)
      · simp [dots_cons]
    obtain ⟨b', q, hb', -, hq, hcases⟩ := haddress hsafe hclean
    obtain rfl : b' = b := Option.some.inj (hb'.symm.trans h.read)
    rw [hfill, h.read_path hsafe.unreserved] at hq
    obtain rfl := Option.some.inj hq
    rcases hcases with ⟨-, ⟨hs, -⟩ | ⟨hn, -⟩⟩ | hstays
    · exact hs rfl
    · exact hn rfl
    · obtain ⟨segs, hsplit, -⟩ := @Ordinary.splitOn_path _ _ _ _ h ".".toList (by decide)
      have hdots := hstays.plain.dots ".".toList
      rw [hfill, hsplit] at hdots
      exact absurd (hdots (by simp)) (by decide)
  · intro hne hsafe hclean
    have hfill := h.fill id.toList
    have hslash : '/' ∉ id.toList := fun hc => absurd (hsafe.unreserved _ hc) (by decide)
    obtain ⟨segs, hsplit, hsegs⟩ := h.splitOn_path hslash
    refine ⟨b, ⟨[], [], reference (stem ++ '/' :: id.toList), [], []⟩, h.read, h.port, ?_,
      .inr ⟨?_, .inr h.base, ?_⟩⟩
    · rw [hfill]
      exact h.read_path hsafe.unreserved
    · rw [hfill]
      exact h.whole hslash
    · have hid : Url.isDots id.toList = false := by
        rw [Url.isDots, Bool.or_eq_false_iff, decide_eq_false_iff_not, decide_eq_false_iff_not]
        exact ⟨fun h => hne (String.toList_inj.mp h),
          fun h => hsafe.no_dots (h ▸ List.infix_rfl)⟩
      rw [hfill, hsplit, Url.plain_cons (by simp)]
      refine ⟨fun seg hseg => ?_, fun seg hseg => ?_⟩
      · rw [List.dropLast_concat] at hseg
        exact (hsegs seg hseg).1
      · rcases List.mem_cons.mp hseg with rfl | hseg
        · rfl
        · rcases List.mem_append.mp hseg with hseg | hseg
          · exact (hsegs seg hseg).2
          · rw [List.mem_singleton.mp hseg]
            exact hid

end ValidatedTemplate

/-- **The URL of a task is its own just where the path its id is filled into stays whole.** -/
theorem addresses_iff (U : Unicode) (t : ValidatedTemplate)
    (hends : "/{id}".toList <:+ t.getPathTemplate.toList) (id id' : String) :
    (AddressesOne U t.toResolvedTemplate id ∧ AddressesOne U t.toResolvedTemplate id' ∧
        ∀ req req', renderGet (joinUrl U) t.toResolvedTemplate id = .ok req →
          renderGet (joinUrl U) t.toResolvedTemplate id' = .ok req' → id ≠ id' →
            req.url ≠ req'.url) ↔
      Addressable U t.toResolvedTemplate id ∧ Addressable U t.toResolvedTemplate id' := by
  rw [← t.addressesOne_iff hends, ← t.addressesOne_iff hends]
  refine ⟨fun h => ⟨h.1, h.2.1⟩, fun ⟨h, h'⟩ => ⟨h, h', fun req req' hok hok' hne hurl => hne ?_⟩⟩
  rcases h with ⟨message, herr⟩ | ⟨_, path, b, r, hreq, -, -, hr, -, -, hlast⟩
  · rw [hok] at herr
    cases herr
  rcases h' with ⟨message, herr⟩ | ⟨_, path', b', r', hreq', -, -, hr', -, -, hlast'⟩
  · rw [hok'] at herr
    cases herr
  obtain rfl := Except.ok.inj (hreq.symm.trans hok)
  obtain rfl := Except.ok.inj (hreq'.symm.trans hok')
  rw [hurl, hr', Option.some_inj] at hr
  rw [← hr, hlast', Option.some_inj, String.toList_inj] at hlast
  exact hlast.symm

/-- A template that gives the id of a query as the last segment, which `validate` accepts. -/
def taskTemplate : ValidatedTemplate :=
  { queryTemplate with
    getPathTemplate := "/tasks/{id}"
    accepted := by decide +kernel
    getPath_shape := queryTemplate.cancelPath_shape }

theorem taskTemplate_ordinary : ValidatedTemplate.Ordinary Ssrf.asciiTables taskTemplate
    ⟨"https".toList, "upstream".toList, [], [], []⟩ "/tasks".toList where
  read := by decide +kernel
  port := by decide +kernel
  base := by decide +kernel
  get := by decide +kernel
  chars := by
    have hall : "/tasks".toList.all (fun c => unreserved c || c == '/') = true := by decide +kernel
    exact fun c hc => by simpa using List.all_eq_true.mp hall c hc
  dots := by simp [dots_cons]
  segments := by decide +kernel

theorem addresses_apart :
    AddressesOne Ssrf.asciiTables taskTemplate.toResolvedTemplate "t-1" ∧
      AddressesOne Ssrf.asciiTables taskTemplate.toResolvedTemplate "t-2" ∧
      ∀ req req',
        renderGet (joinUrl Ssrf.asciiTables) taskTemplate.toResolvedTemplate "t-1" = .ok req →
        renderGet (joinUrl Ssrf.asciiTables) taskTemplate.toResolvedTemplate "t-2" = .ok req' →
        "t-1" ≠ "t-2" → req.url ≠ req'.url :=
  (addresses_iff Ssrf.asciiTables taskTemplate (by decide +kernel) "t-1" "t-2").mpr
    ⟨taskTemplate_ordinary.addressable_iff.mpr (by decide),
      taskTemplate_ordinary.addressable_iff.mpr (by decide)⟩

/-- **The URL of the id `.` is that of the collection.** -/
theorem dot_addressesCollection : ¬ ∀ (U : Unicode) (t : ValidatedTemplate) (id id' : String),
    "/{id}".toList <:+ t.getPathTemplate.toList →
      AddressesOne U t.toResolvedTemplate id ∧ AddressesOne U t.toResolvedTemplate id' ∧
        ∀ req req', renderGet (joinUrl U) t.toResolvedTemplate id = .ok req →
          renderGet (joinUrl U) t.toResolvedTemplate id' = .ok req' → id ≠ id' →
            req.url ≠ req'.url := by
  intro h
  obtain ⟨haddress, -⟩ := h Ssrf.asciiTables taskTemplate "." "." (by decide +kernel)
  have hurl : (renderGet (joinUrl Ssrf.asciiTables) taskTemplate.toResolvedTemplate ".").map
      (·.url) = .ok "https://upstream/tasks/" := by decide +kernel
  rcases haddress with ⟨message, herr⟩ | ⟨req, path, b, r, hok, -, -, hr, -, -, hlast⟩
  · rw [herr] at hurl
    cases hurl
  · rw [hok, Except.map, Except.ok.injEq] at hurl
    have hread : Url.urlsplit Ssrf.asciiTables "https://upstream/tasks/".toList =
        some ⟨"https".toList, "upstream".toList, "/tasks/".toList, [], []⟩ := by decide +kernel
    rw [hurl, hread] at hr
    rw [← Option.some.inj hr] at hlast
    exact absurd hlast (by decide +kernel)

end AsyncGateway
