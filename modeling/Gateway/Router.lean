import Mathlib
import Gateway.Http
import Gateway.Config
import Gateway.CheckToken

/-! The route table and the scope check (Router.h, Router.cpp). -/
namespace Gateway

open Search

def apiAreas : List Bytes :=
  [ascii "users", ascii "courses", ascii "quests", ascii "tests", ascii "attempts",
    ascii "answers"]

def isApiArea (area : Bytes) : Bool := apiAreas.any (· == area)

/-- The singular prefix of the granular permissions of an area. -/
def granularPrefix (area : Bytes) : Bytes :=
  if area = ascii "courses" then ascii "course:"
  else if area = ascii "quests" then ascii "quest:"
  else if area = ascii "tests" then ascii "test:"
  else if area = ascii "attempts" then ascii "attempt:"
  else if area = ascii "answers" then ascii "answer:"
  else ascii "user:"

inductive RouteKind where
  | kHealth
  | kApi
  | kNotFound
  | kMethodNotAllowed
  deriving DecidableEq

structure RouteResult where
  kind : RouteKind := .kNotFound
  area : Bytes := []
  upstreamBase : Bytes := []
  forwardPath : Bytes := []
  requiredScope : Bytes := []
  deriving DecidableEq

def isReadMethod (m : Bytes) : Bool := m = ascii "GET" ∨ m = ascii "HEAD"

def isAllowedMethod (m : Bytes) : Bool :=
  m = ascii "GET" ∨ m = ascii "POST" ∨ m = ascii "PUT" ∨ m = ascii "PATCH" ∨ m = ascii "DELETE"

/-- Path and query of a target; the query keeps its `?`. -/
def splitQuery (target : Bytes) : Bytes × Bytes :=
  match find? (ascii "?") target with
  | none => (target, [])
  | some q => (target.take q, target.drop q)

/-- The rest of an `/api/` path as its area and, from the first `/` on, its remainder. -/
def splitArea (rest : Bytes) : Bytes × Bytes :=
  match find? (ascii "/") rest with
  | none => (rest, ascii "/")
  | some slash => (rest.take slash, rest.drop slash)

def matchRoute (method target : Bytes) (cfg : Config) : RouteResult :=
  let (path, query) := splitQuery target
  if path = ascii "/health" ∨ path = ascii "/health/" then { kind := .kHealth }
  else if ¬ ascii "/api/" <+: path then { kind := .kNotFound }
  else
    let (area, remainder) := splitArea (path.drop 5)
    if !isApiArea area then { kind := .kNotFound }
    else if !isAllowedMethod method then { kind := .kMethodNotAllowed }
    else
      let remainder := if remainder = [] then ascii "/" else remainder
      { kind := .kApi
        area := area
        upstreamBase := cfg.upstreamFor area
        forwardPath := remainder ++ query
        requiredScope := area ++ (if isReadMethod method then ascii ":read" else ascii ":write") }

def hasScope (auth : AuthInfo) (area requiredScope : Bytes) : Bool :=
  auth.roles.any (· == ascii "admin") || auth.permissions.any (· == requiredScope) ||
    auth.permissions.any fun p => (granularPrefix area).isPrefixOf p

end Gateway
