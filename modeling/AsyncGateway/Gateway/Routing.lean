import AsyncGateway.Lib.Pattern
import AsyncGateway.Templates.Schema

/-!
# Gateway — what a request to an alias asks for

A request is told by its method and its path, which is compared with the paths of the template
(`matchRoute`): the one of a create as it is, the ones of a query and of a cancel with any segment,
or part of one, in the place of `{id}`.  The id is what the first of these takes (`matchPath`); a
path that has none, which the check of a template does not exclude, has no group to ask for.
-/

namespace AsyncGateway

inductive RouteKind : Type where
  | create
  | query
  | cancel
  deriving DecidableEq

structure RouteMatch where
  kind : RouteKind
  upstreamId : Option String := none
  deriving DecidableEq

/-- `_normalize`. -/
def normalizePath (path : List Char) : List Char :=
  let path := Text.strip (path.takeWhile (· ≠ '?'))
  let path := if path.head? = some '/' then path else '/' :: path
  let path := (path.reverse.dropWhile (· = '/')).reverse
  if path = [] then ['/'] else path

/-- The pieces of a path between the places of `{id}`. -/
def pieces : List Char → List (List Char)
  | [] => [[]]
  | '{' :: 'i' :: 'd' :: '}' :: cs => [] :: pieces cs
  | c :: cs =>
      match pieces cs with
      | [] => [[c]]
      | l :: ls => (c :: l) :: ls

/-- `[^/]+`. -/
def idGroup : Pattern := .many (fun c => decide (c ≠ '/')) 1 none

/-- `/?$`. -/
def pathEnd : Pattern := .seq (.either (.char (· == '/')) .empty) .atEnd

/-- The pattern of the pieces, with a group between any two. -/
def piecesPattern : List (List Char) → Pattern
  | [] => pathEnd
  | [l] => .seq (.literal l) pathEnd
  | l :: ls => .seq (.literal l) (.seq idGroup (piecesPattern ls))

/-- `_pattern(template_path).match(path)`, and what its first group takes: none where there is no
match, an `IndexError` where there is one and no group. -/
def matchPath (templatePath : String) (path : List Char) : Except Exn (Option String) :=
  match pieces (normalizePath templatePath.toList) with
  | l :: l' :: ls =>
      .ok ((Pattern.captured (.literal l) idGroup (piecesPattern (l' :: ls)) (none, path)).map
        String.ofList)
  | ls =>
      if (piecesPattern ls).ends (none, path) = [] then .ok none
      else .error (.infrastructure "IndexError")

/-- `match_route`. -/
def matchRoute (t : ResolvedTemplate) (rawPath method : String) :
    Except Exn (Option RouteMatch) := do
  let path := normalizePath rawPath.toList
  let method := method.toUpper
  if method = t.createMethod.toUpper ∧ path = normalizePath t.createPath.toList then
    .ok (some ⟨.create, none⟩)
  else
    -- whether the upstream can cancel is not asked here
    let cancelled ←
      if method = t.cancelMethod.toUpper then matchPath t.cancelPathTemplate path else .ok none
    match cancelled with
    | some id => .ok (some ⟨.cancel, some id⟩)
    | none =>
        let queried ←
          if method = t.getMethod.toUpper then matchPath t.getPathTemplate path else .ok none
        .ok (queried.map fun id => ⟨.query, some id⟩)

end AsyncGateway
