import Mathlib
import MonkeyOcr.Codec.Percent
import MonkeyOcr.Gateway.Identity

namespace MonkeyOcr

namespace Gateway

open Codec.Percent

/-- What a `url.URL` asks of its server. A raw path is kept where the path is not
escaped in the usual way. -/
structure Url where
  path : Octets := []
  rawPath : Octets := []
  rawQuery : Octets := []
  deriving DecidableEq

namespace Url

/-- The path as it is sent. -/
def escapedPath (url : Url) : Octets :=
  if url.rawPath ≠ [] ∧ validEncoded url.rawPath ∧ unescape url.rawPath = some url.path then url.rawPath
  else if url.path = [42] then [42]
  else escape url.path

/-- Two texts with one slash between them, by what is known of their ends. -/
def joinedBy (aslash bslash : Bool) (a b : Octets) : Octets :=
  if aslash && bslash then a ++ b.drop 1 else if !aslash && !bslash then a ++ 47 :: b else a ++ b

def singleJoiningSlash (a b : Octets) : Octets := joinedBy (a.getLast? = some 47) (b.head? = some 47) a b

def joinURLPath (a b : Url) : Octets × Octets :=
  if a.rawPath = [] ∧ b.rawPath = [] then (singleJoiningSlash a.path b.path, [])
  else
    let apath := a.escapedPath
    let bpath := b.escapedPath
    let aslash := apath.getLast? = some 47
    let bslash := bpath.head? = some 47
    (joinedBy aslash bslash a.path b.path, joinedBy aslash bslash apath bpath)

/-- `rewriteRequestURL` of `httputil`, for the URL of a request. -/
def rewriteRequestURL (url target : Url) : Url where
  path := (joinURLPath target url).1
  rawPath := (joinURLPath target url).2
  rawQuery :=
    if target.rawQuery = [] ∨ url.rawQuery = [] then target.rawQuery ++ url.rawQuery
    else target.rawQuery ++ 38 :: url.rawQuery

example : rewriteRequestURL ⟨Bytes.utf8 "/v1/a b", Bytes.utf8 "/v1/a%20b", Bytes.utf8 "q"⟩
      ⟨Bytes.utf8 "/api/", [], Bytes.utf8 "k=1"⟩ =
    ⟨Bytes.utf8 "/api/v1/a b", Bytes.utf8 "/api/v1/a%20b", Bytes.utf8 "k=1&q"⟩ := by decide +kernel

variable {url target : Url} {aslash bslash : Bool} {a b apath bpath : Octets}

theorem escapedPath_reads (url : Url) :
    validEncoded url.escapedPath = true ∧ unescape url.escapedPath = some url.path := by
  unfold escapedPath
  split
  · rename_i raw
    exact ⟨raw.2.1, raw.2.2⟩
  · split
    · rename_i star
      rw [star]
      exact ⟨by decide, by decide⟩
    · exact ⟨validEncoded_escape _, unescape_escape _⟩

/-- A raw path that stands for the path is sent. -/
theorem escapedPath_eq (valid : validEncoded url.rawPath = true) (read : unescape url.rawPath = some url.path) :
    url.escapedPath = url.rawPath := by
  by_cases empty : url.rawPath = []
  · have path : url.path = [] := by
      rw [empty] at read
      exact (Option.some.inj read).symm
    simp [escapedPath, empty, path, escape]
  · exact if_pos ⟨empty, valid, read⟩

theorem validEncoded_joinedBy (front : validEncoded apath = true) (back : validEncoded bpath = true) :
    validEncoded (joinedBy aslash bslash apath bpath) = true := by
  have rest : validEncoded (bpath.drop 1) = true := by
    rw [← List.take_append_drop 1 bpath, validEncoded_append, Bool.and_eq_true] at back
    exact back.2
  have slash : validEncoded (47 :: bpath) = true := by
    rw [← List.singleton_append, validEncoded_append, back]
    decide
  unfold joinedBy
  split
  · rw [validEncoded_append, front, rest, Bool.and_self]
  · split
    · rw [validEncoded_append, front, slash, Bool.and_self]
    · rw [validEncoded_append, front, back, Bool.and_self]

theorem unescape_joinedBy (front : unescape apath = some a) (back : unescape bpath = some b)
    (slash : bslash = true → bpath.head? = some 47) :
    unescape (joinedBy aslash bslash apath bpath) = some (joinedBy aslash bslash a b) := by
  unfold joinedBy
  split
  · rename_i both
    rw [Bool.and_eq_true] at both
    obtain ⟨rest, rfl⟩ : ∃ rest, bpath = 47 :: rest := by
      cases bpath with
      | nil => cases slash both.2
      | cons c rest => exact ⟨rest, by rw [Option.some.inj (slash both.2)]⟩
    rw [unescape_cons (by decide)] at back
    obtain ⟨later, read, rfl⟩ := Option.map_eq_some_iff.mp back
    rw [unescape_append front, List.drop_one, List.tail_cons, read, Option.map_some, List.drop_one, List.tail_cons]
  · split
    · rw [unescape_append front, unescape_cons (by decide), back, Option.map_some, Option.map_some]
    · rw [unescape_append front, back, Option.map_some]

theorem escape_joinedBy (slash : bslash = true → b.head? = some 47) :
    escape (joinedBy aslash bslash a b) = joinedBy aslash bslash (escape a) (escape b) := by
  have plain : escape [47] = [47] := by decide
  unfold joinedBy
  split
  · rename_i both
    rw [Bool.and_eq_true] at both
    obtain ⟨rest, rfl⟩ : ∃ rest, b = [47] ++ rest := by
      cases b with
      | nil => cases slash both.2
      | cons c rest => exact ⟨rest, by rw [Option.some.inj (slash both.2), List.singleton_append]⟩
    rw [escape_append, escape_append, plain]
    rfl
  · split
    · rw [escape_append, ← List.singleton_append, escape_append, plain, List.singleton_append]
    · rw [escape_append]

theorem escapedPath_usual (usual : url.rawPath = []) (apart : url.path ≠ [42]) : url.escapedPath = escape url.path := by
  rw [escapedPath, if_neg (by simp [usual]), if_neg apart]

theorem slash_mem_singleJoiningSlash (slash : b.head? = some 47) : 47 ∈ singleJoiningSlash a b := by
  rw [singleJoiningSlash, decide_eq_true slash]
  by_cases last : a.getLast? = some 47
  · rw [decide_eq_true last]
    exact List.mem_append_left _ (List.mem_of_getLast? last)
  · rw [decide_eq_false last]
    exact List.mem_append_right _ (List.mem_of_head? slash)

/-- The upstream is sent the path of the client as it was escaped, behind the one of the
target, with one slash between them. -/
theorem escapedPath_rewriteRequestURL (slash : url.escapedPath.head? = some 47) (rooted : target.path ≠ [42]) :
    (url.rewriteRequestURL target).escapedPath = singleJoiningSlash target.escapedPath url.escapedPath := by
  by_cases usual : target.rawPath = [] ∧ url.rawPath = []
  · obtain ⟨targetRaw, urlRaw⟩ := usual
    have apart : url.path ≠ [42] := by
      intro star
      rw [escapedPath, urlRaw, star] at slash
      exact absurd slash (by decide)
    have back := escapedPath_usual urlRaw apart
    have begins : url.path.head? = some 47 := by rwa [back, escape_head] at slash
    have joined : (url.rewriteRequestURL target).path = singleJoiningSlash target.path url.path := by
      simp [rewriteRequestURL, joinURLPath, targetRaw, urlRaw]
    have rewritten : (url.rewriteRequestURL target).rawPath = [] := by
      simp [rewriteRequestURL, joinURLPath, targetRaw, urlRaw]
    have slashed : (url.rewriteRequestURL target).path ≠ [42] := by
      rw [joined]
      intro star
      have member := slash_mem_singleJoiningSlash (a := target.path) begins
      rw [star] at member
      exact absurd member (by decide)
    rw [escapedPath_usual rewritten slashed, joined, escapedPath_usual targetRaw rooted, back, singleJoiningSlash,
      singleJoiningSlash, escape_joinedBy of_decide_eq_true]
    simp only [escape_head, escape_getLast]
  · obtain ⟨frontValid, frontRead⟩ := escapedPath_reads target
    obtain ⟨backValid, backRead⟩ := escapedPath_reads url
    have raw : (url.rewriteRequestURL target).rawPath = singleJoiningSlash target.escapedPath url.escapedPath := by
      simp only [rewriteRequestURL, joinURLPath, usual, if_false]
      rfl
    rw [← raw]
    apply escapedPath_eq
    · rw [raw]
      exact validEncoded_joinedBy frontValid backValid
    · rw [raw]
      simp only [rewriteRequestURL, joinURLPath, usual, if_false]
      exact unescape_joinedBy frontRead backRead of_decide_eq_true

/-- A target without a path and a query gets those of the client. -/
theorem rewriteRequestURL_bare (slash : url.escapedPath.head? = some 47) :
    (url.rewriteRequestURL {}).escapedPath = url.escapedPath ∧ (url.rewriteRequestURL {}).rawQuery = url.rawQuery := by
  constructor
  · have nothing : escapedPath {} = [] := rfl
    rw [escapedPath_rewriteRequestURL slash (by decide), nothing, singleJoiningSlash, decide_eq_true slash]
    rfl
  · rfl

end Url

end Gateway

end MonkeyOcr
