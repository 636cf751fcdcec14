import DelegatedAccess.Http.Service
import DelegatedAccess.Proofs.Http.MediaType

/-!
# Where requests go

The target of a request is a path, before which a scheme and an authority may stand, and after which
a query or a fragment may stand. The status is read under its path, and under each of ten other
paths something is posted, which is labelled as JSON.

The main results of this module are that a request makes its demand on the route under whose path it
is made, and makes none under other paths and with other methods.
-/

namespace DelegatedAccess.Http

/-! ### Paths -/

/-- What may stand before a path: a scheme and an authority, or nothing. -/
inductive IsOrigin : List Char → Prop
  | none : IsOrigin []
  | absolute {scheme authority : List Char} (hscheme : ∀ c ∈ scheme, c ∉ [':', '/', '?', '#'])
      (hauthority : ∀ c ∈ authority, c ∉ ['/', '?', '#']) :
      IsOrigin (scheme ++ ':' :: '/' :: '/' :: authority)

/-- What may stand after a path: a query or a fragment, or nothing. -/
def IsTrailer (cs : List Char) : Prop :=
  ∀ c, cs.head? = some c → c = '?' ∨ c = '#'

/-- A request is made under a path. -/
def Request.IsUnder (req : Request) (path : String) : Prop :=
  ∃ origin trailer, IsOrigin origin ∧ IsTrailer trailer ∧
    req.target.toList = origin ++ (path.toList ++ trailer)

/-- A path is plain when it is not the root and has no query or fragment. -/
def IsPlain (path : String) : Prop :=
  ∃ c cs, path.toList = '/' :: c :: cs ∧ ∀ d ∈ path.toList, d ≠ '?' ∧ d ≠ '#'

/-- A character is of a scheme when it is neither a colon nor the beginning of another part. -/
theorem isScheme_iff (c : Char) :
  (decide (c ≠ ':') && !isSeparator c) = true ↔ c ∉ [':', '/', '?', '#']
  := by
  simp [isSeparator, and_assoc]

/-- A character is of an authority when it is not the beginning of another part. -/
theorem isAuthority_iff (c : Char) :
  (!isSeparator c) = true ↔ c ∉ ['/', '?', '#']
  := by
  simp [isSeparator, and_assoc]

/-- A target is what is left of it without an origin that stands before. -/
theorem exists_isOrigin (target : List Char) :
  ∃ origin, IsOrigin origin ∧ target = origin ++ withoutAuthority target
  := by
  rw [withoutAuthority]
  split
  next rest hrest =>
    have hscheme : ∀ c ∈ target.takeWhile fun c => c ≠ ':' && !isSeparator c,
        c ∉ [':', '/', '?', '#'] := by
      intro c hc
      have hpasses := List.mem_takeWhile_imp hc
      exact (isScheme_iff c).mp hpasses
    have hauthority : ∀ c ∈ rest.takeWhile fun c => !isSeparator c, c ∉ ['/', '?', '#'] := by
      intro c hc
      have hpasses := List.mem_takeWhile_imp hc
      exact (isAuthority_iff c).mp hpasses
    refine ⟨_, .absolute hscheme hauthority, ?_⟩
    rw [List.append_assoc, List.cons_append, List.cons_append, List.cons_append,
      List.takeWhile_append_dropWhile, ← hrest, List.takeWhile_append_dropWhile]
  next => exact ⟨[], .none, rfl⟩

/-- A path is left of a target without its origin. -/
theorem withoutAuthority_append {origin : List Char} (h : IsOrigin origin) (rest : List Char) :
  withoutAuthority (origin ++ '/' :: rest) = '/' :: rest
  := by
  cases h with
  | none => rfl
  | @absolute scheme authority hscheme hauthority =>
      have hcolon : ∀ c, (':' :: '/' :: '/' :: (authority ++ '/' :: rest)).head? = some c →
          (decide (c ≠ ':') && !isSeparator c) = false := by
        intro c hc
        obtain rfl := Option.some.inj hc
        rfl
      have hslash : ∀ c, ('/' :: rest).head? = some c → (!isSeparator c) = false := by
        intro c hc
        obtain rfl := Option.some.inj hc
        rfl
      rw [withoutAuthority, List.append_assoc, List.cons_append, List.cons_append,
        List.cons_append,
        (Reader.span_append (fun c hc => (isScheme_iff c).mpr (hscheme c hc)) hcolon).2]
      exact (Reader.span_append (fun c hc => (isAuthority_iff c).mpr (hauthority c hc)) hslash).2

/-- The path of a request is the plain path under which it is made. -/
theorem Request.path_eq_iff {req : Request} {path : String} (hpath : IsPlain path) :
  req.path = path ↔ req.IsUnder path
  := by
  obtain ⟨c, cs, hchars, hplain⟩ := hpath
  constructor
  · intro h
    obtain ⟨origin, horigin, htarget⟩ := exists_isOrigin req.target.toList
    have htake : (withoutAuthority req.target.toList).takeWhile (fun c => c ≠ '?' && c ≠ '#') =
        path.toList := by
      rw [Request.path] at h
      split at h
      next =>
        rw [← h] at hchars
        simp at hchars
      next => rw [← h, String.toList_ofList]
    obtain ⟨hrest, -, hstop⟩ := Reader.span_eq_iff.mp ⟨htake, rfl⟩
    refine ⟨origin, (withoutAuthority req.target.toList).dropWhile fun c => c ≠ '?' && c ≠ '#',
      horigin, ?_, ?_⟩
    · intro d hd
      simpa [Decidable.or_iff_not_imp_left] using hstop d hd
    · rw [← hrest]
      exact htarget
  · rintro ⟨origin, trailer, horigin, htrailer, htarget⟩
    have htake : (path.toList ++ trailer).takeWhile (fun c => c ≠ '?' && c ≠ '#') =
        path.toList := by
      refine (Reader.span_append ?_ ?_).1
      · intro d hd
        simpa using hplain d hd
      · intro d hd
        rcases htrailer d hd with rfl | rfl <;> rfl
    rw [hchars, List.cons_append] at htake
    rw [Request.path, htarget, hchars, List.cons_append, withoutAuthority_append horigin, htake]
    dsimp only
    rw [← hchars, String.ofList_toList]

/-! ### Routes -/

/-- The paths under which something is posted. -/
def posts : List (String × Route) :=
  [("/initialize", .bootstrap), ("/permissions", .create), ("/grant", .grant),
    ("/revoke", .revoke), ("/manager", .setManager), ("/manager/remove", .removeManager),
    ("/manager/burn", .burnManager), ("/manager/get", .readManager), ("/rules/get", .readRules),
    ("/check", .check)]

namespace Request

variable (req : Request)

/-- A request reads the status, or its head alone. -/
def ReadsStatus : Prop :=
  req.IsUnder "/status" ∧ (req.method = .get ∨ req.method = .head)

/-- A request posts something to a route. -/
def PostsTo (r : Route) : Prop :=
  ∃ path, (path, r) ∈ posts ∧ req.IsUnder path ∧ req.method = .post

/-- A request is made under the path of a route. -/
def IsPlaced : Prop :=
  req.IsUnder "/status" ∨ ∃ path r, (path, r) ∈ posts ∧ req.IsUnder path

end Request

/-- Something is posted under the path of each route but one. -/
theorem mem_posts_iff {path : String} {r : Route} :
  (path, r) ∈ posts ↔ r ≠ .status ∧ path = r.path
  := by
  cases r <;> simp [posts, Route.path]

/-- Every route is found by its path. -/
theorem Route.ofPath?_path (r : Route) :
  ofPath? r.path = some r
  := by
  cases r <;> rfl

/-- All routes but one are for posting. -/
theorem Route.allows_eq {r : Route} (hr : r ≠ .status) (m : Method) :
  r.allows m = decide (m = .post)
  := by
  cases r with
  | status => contradiction
  | _ => rfl

namespace Request

variable {req : Request}

/-- A request is made under the path of a route if that is its path. -/
theorem isUnder_path_iff (r : Route) :
  req.IsUnder r.path ↔ req.path = r.path
  := by
  have hplain : IsPlain r.path := by
    cases r <;> exact ⟨_, _, rfl, by simp [Route.path]⟩
  exact (path_eq_iff hplain).symm

/-- A request posts to a route that has its path. -/
theorem postsTo_iff {r : Route} :
  req.PostsTo r ↔ r ≠ .status ∧ req.path = r.path ∧ req.method = .post
  := by
  constructor
  · rintro ⟨path, hpost, hpath, hmethod⟩
    obtain ⟨hr, rfl⟩ := mem_posts_iff.mp hpost
    exact ⟨hr, (isUnder_path_iff r).mp hpath, hmethod⟩
  · rintro ⟨hr, hpath, hmethod⟩
    exact ⟨r.path, mem_posts_iff.mpr ⟨hr, rfl⟩, (isUnder_path_iff r).mpr hpath, hmethod⟩

/-- A request is placed when some route has its path. -/
theorem isPlaced_iff :
  req.IsPlaced ↔ ∃ r : Route, req.path = r.path
  := by
  constructor
  · rintro (hpath | ⟨path, r, hpost, hpath⟩)
    · exact ⟨.status, (isUnder_path_iff .status).mp hpath⟩
    · obtain ⟨_, rfl⟩ := mem_posts_iff.mp hpost
      exact ⟨r, (isUnder_path_iff r).mp hpath⟩
  · rintro ⟨r, hpath⟩
    have hunder := (isUnder_path_iff r).mpr hpath
    by_cases hr : r = .status
    · subst hr
      exact .inl hunder
    · exact .inr ⟨r.path, r, mem_posts_iff.mpr ⟨hr, rfl⟩, hunder⟩

/-- A request that is not placed makes no demand. -/
theorem demand_of_not_isPlaced (h : ¬ req.IsPlaced) :
  req.demand = .error .notFound
  := by
  have hnone : Route.ofPath? req.path = none := by
    rw [Route.ofPath?, List.find?_eq_none]
    intro r _ hr
    exact h (isPlaced_iff.mpr ⟨r, (of_decide_eq_true hr).symm⟩)
  rw [demand, hnone]

/-- A request that is placed makes no demand if it neither reads the status nor posts anything. -/
theorem demand_of_not_postsTo (hplaced : req.IsPlaced) (hstatus : ¬ req.ReadsStatus)
    (hposts : ∀ r, ¬ req.PostsTo r) :
  req.demand = .error .methodNotAllowed
  := by
  obtain ⟨r, hpath⟩ := isPlaced_iff.mp hplaced
  rw [demand, hpath, Route.ofPath?_path]
  apply if_neg
  intro hallows
  by_cases hr : r = .status
  · subst hr
    exact hstatus ⟨(isUnder_path_iff .status).mpr hpath, by simpa [Route.allows] using hallows⟩
  · rw [Route.allows_eq hr] at hallows
    exact hposts r (postsTo_iff.mpr ⟨hr, hpath, of_decide_eq_true hallows⟩)

end Request

end DelegatedAccess.Http
