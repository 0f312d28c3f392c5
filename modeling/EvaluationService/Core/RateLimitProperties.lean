import EvaluationService.Core.RateLimit
import EvaluationService.Foundation.Keyed

/-!
Tenants and their counters. A counter belongs to a key, and the key joins the route, the
tenant and the client address with a character that the last two may contain.
-/

set_option autoImplicit false

namespace EvaluationService

open Foundation

/-! ## Counters -/

/-- What a check answers, and what it makes of the counter of its key. -/
def touch (windowSeconds : Int) (now : ℚ) (limit : Int) :
    Option WindowCounter → Except Exn Unit × Option WindowCounter
  | none => (.ok (), some { windowStart := now, count := 1 })
  | some counter =>
      if windowSeconds ≤ now - counter.windowStart then
        (.ok (), some { windowStart := now, count := 1 })
      else if limit ≤ counter.count then (.error (.app .rateLimitExceeded), some counter)
      else (.ok (), some { counter with count := counter.count + 1 })

theorem InMemoryRateLimiter.check_eq (limiter : InMemoryRateLimiter) (now : ℚ) (key : String)
    (limit : Int) :
    limiter.check now key limit =
      ((touch limiter.windowSeconds now limit (limiter.counters key)).1,
        { limiter with
          counters := Function.update limiter.counters key
            (touch limiter.windowSeconds now limit (limiter.counters key)).2 }) := by
  unfold check
  cases found : limiter.counters key with
  | none => rfl
  | some counter =>
      dsimp only [touch]
      split
      · rfl
      · split
        · -- a refused check leaves its counter as it is
          have same : Function.update limiter.counters key (some counter) = limiter.counters := by
            rw [← found, Function.update_eq_self]
          rw [same]
        · rfl

/-! ## Requests -/

/-- A request at the point where its route checks the limit; a resolved tenant is never empty. -/
structure LimitedRequest where
  now : ℚ
  routeName : RouteName
  tenantId : String
  origin : Origin
  tenantResolved : tenantId ≠ ""

namespace LimitedRequest

def key (request : LimitedRequest) : String :=
  clientKey request.origin request.routeName.value (some request.tenantId)

/-- What the counter of a request is meant to be for. -/
def client (request : LimitedRequest) : RouteName × String × String :=
  (request.routeName, request.tenantId, request.origin.clientIp)

/-- The requests of a sequence with the decisions on them. -/
def decisions (settings : Settings) (limiter : InMemoryRateLimiter) :
    List LimitedRequest → List (LimitedRequest × Except Exn Unit)
  | [] => []
  | request :: rest =>
      let (decision, next) := checkRateLimit settings limiter request.now request.origin
        request.routeName (some request.tenantId)
      (request, decision) :: decisions settings next rest

/-- `touch` for one request, under the settings that hold for all of them. -/
def touches (settings : Settings) (windowSeconds : Int) (cell : Option WindowCounter)
    (request : LimitedRequest) : Except Exn Unit × Option WindowCounter :=
  if !settings.rateLimitEnabled then (.ok (), cell)
  else touch windowSeconds request.now (request.routeName.limit settings) cell

theorem decisions_eq_log (settings : Settings) (limiter : InMemoryRateLimiter)
    (requests : List LimitedRequest) :
    decisions settings limiter requests =
      Keyed.log key (touches settings limiter.windowSeconds) limiter.counters requests := by
  induction requests generalizing limiter with
  | nil => rfl
  | cons request rest ih =>
      have checked : checkRateLimit settings limiter request.now request.origin request.routeName
          (some request.tenantId) =
            ((touches settings limiter.windowSeconds (limiter.counters request.key) request).1,
              ⟨limiter.windowSeconds, Keyed.after key (touches settings limiter.windowSeconds)
                limiter.counters request⟩) := by
        unfold checkRateLimit touches Keyed.after
        cases settings.rateLimitEnabled with
        | true => exact limiter.check_eq request.now request.key (request.routeName.limit settings)
        | false => simp
      simp only [decisions, checked, Keyed.log, ih]

/-- A limiter that is switched off admits every request. -/
theorem decisions_of_disabled {settings : Settings} (disabled : settings.rateLimitEnabled = false)
    (limiter : InMemoryRateLimiter) (requests : List LimitedRequest) :
    decisions settings limiter requests = requests.map fun request => (request, .ok ()) := by
  induction requests with
  | nil => rfl
  | cons request rest ih =>
      simp only [decisions, checkRateLimit, disabled, Bool.not_false, if_true, ih, List.map_cons]

/-! ## Keys -/

/-- Two requests on one route whose tenant and address are one text, split at different places. -/
def Overlaps (first second : LimitedRequest) : Prop :=
  first.routeName = second.routeName ∧
    ∃ middle, second.tenantId = first.tenantId ++ ":" ++ middle ∧
      first.origin.clientIp = middle ++ ":" ++ second.origin.clientIp

theorem key_eq (request : LimitedRequest) :
    request.key =
      request.routeName.value ++ ":" ++ request.tenantId ++ ":" ++ request.origin.clientIp := by
  simp [key, clientKey, Option.filter, request.tenantResolved]

theorem Overlaps.key_eq {first second : LimitedRequest} (overlaps : Overlaps first second) :
    first.key = second.key := by
  obtain ⟨sameRoute, middle, tenant, address⟩ := overlaps
  simp only [LimitedRequest.key_eq, sameRoute, tenant, address, String.append_assoc]

theorem Overlaps.tenantId_ne {first second : LimitedRequest} (overlaps : Overlaps first second) :
    first.tenantId ≠ second.tenantId := by
  obtain ⟨_, middle, tenant, _⟩ := overlaps
  intro same
  have lengths := congrArg String.length tenant
  simp only [← same, String.length_append] at lengths
  have colon : ":".length = 1 := by decide
  omega

theorem colon_not_mem_value (route : RouteName) : ':' ∉ route.value.toList := by
  cases route <;> decide

theorem value_inj {first second : RouteName} (same : first.value = second.value) : first = second := by
  cases first <;> cases second <;> first | rfl | (exact absurd same (by decide))

theorem overlaps_of_split {first second : LimitedRequest} {middle : List Char}
    (sameRoute : first.routeName = second.routeName)
    (tenant : second.tenantId.toList = first.tenantId.toList ++ ':' :: middle)
    (address : first.origin.clientIp.toList = middle ++ ':' :: second.origin.clientIp.toList) :
    Overlaps first second := by
  refine ⟨sameRoute, String.ofList middle, ?_, ?_⟩
  · apply String.toList_inj.mp
    simp [tenant]
  · apply String.toList_inj.mp
    simp [address]

theorem overlaps_of_key_eq {first second : LimitedRequest} (same : first.key = second.key)
    (different : first.client ≠ second.client) : Overlaps first second ∨ Overlaps second first := by
  have characters := congrArg String.toList same
  have colon : ":".toList = [':'] := by decide
  simp only [key_eq, String.toList_append, List.append_assoc, colon, List.cons_append,
    List.nil_append] at characters
  rcases Text.append_cons_cases characters with ⟨sameRoute, rest⟩ | ⟨_, longer, _⟩ | ⟨_, longer, _⟩
  rotate_left
  · exact absurd (by simp [longer]) (colon_not_mem_value second.routeName)
  · exact absurd (by simp [longer]) (colon_not_mem_value first.routeName)
  have routes := value_inj (String.toList_inj.mp sameRoute)
  rcases Text.append_cons_cases rest with ⟨tenants, addresses⟩ | ⟨middle, tenant, address⟩ |
    ⟨middle, tenant, address⟩
  · refine absurd ?_ different
    simp only [client, routes, String.toList_inj.mp tenants, String.toList_inj.mp addresses]
  · exact .inl (overlaps_of_split routes tenant address)
  · exact .inr (overlaps_of_split routes.symm tenant address)

/-- The requests of a tenant are decided as if there were no others, and, while the limiter is
on, requests of different clients have different counters. -/
structure IsolatesTenants (settings : Settings) (requests : List LimitedRequest) : Prop where
  decisions : ∀ tenantId,
    (LimitedRequest.decisions settings { } requests).filter (·.1.tenantId = tenantId) =
      LimitedRequest.decisions settings { } (requests.filter (·.tenantId = tenantId))
  counters : settings.rateLimitEnabled = true → ∀ first ∈ requests, ∀ second ∈ requests,
    first.client ≠ second.client → first.key ≠ second.key

theorem isolatesTenants_of_disabled {settings : Settings}
    (disabled : settings.rateLimitEnabled = false) (requests : List LimitedRequest) :
    IsolatesTenants settings requests := by
  constructor
  · intro tenantId
    rw [decisions_of_disabled disabled, decisions_of_disabled disabled, List.filter_map]
    rfl
  · intro enabled
    rw [disabled] at enabled
    cases enabled

theorem isolatesTenants_of_separate (settings : Settings) {requests : List LimitedRequest}
    (separate : ∀ first ∈ requests, ∀ second ∈ requests, ¬ Overlaps first second) :
    IsolatesTenants settings requests := by
  have counters : ∀ first ∈ requests, ∀ second ∈ requests, first.client ≠ second.client →
      first.key ≠ second.key := by
    intro first firstMember second secondMember different same
    rcases overlaps_of_key_eq same different with overlaps | overlaps
    · exact separate first firstMember second secondMember overlaps
    · exact separate second secondMember first firstMember overlaps
  refine ⟨?_, fun _ => counters⟩
  intro tenantId
  simp only [decisions_eq_log]
  apply Keyed.log_filter (fun request : LimitedRequest => decide (request.tenantId = tenantId))
  intro first firstMember second secondMember own foreign
  apply counters first firstMember second secondMember
  intro same
  have tenants : first.tenantId = second.tenantId := congrArg (·.2.1) same
  simp_all

/-- Tenants do not share counters exactly when the limiter is off or no two requests of a
sequence overlap. -/
theorem isolates_tenants_iff (settings : Settings) (requests : List LimitedRequest) :
    IsolatesTenants settings requests ↔
      (settings.rateLimitEnabled = true →
        ∀ first ∈ requests, ∀ second ∈ requests, ¬ Overlaps first second) := by
  constructor
  · intro isolates enabled first firstMember second secondMember overlaps
    apply isolates.counters enabled first firstMember second secondMember
    · intro same
      exact overlaps.tenantId_ne (congrArg (·.2.1) same)
    · exact overlaps.key_eq
  · intro separate
    cases enabled : settings.rateLimitEnabled with
    | false => exact isolatesTenants_of_disabled enabled requests
    | true => exact isolatesTenants_of_separate settings (separate enabled)

end LimitedRequest

/-- Two tenants behind one proxy; the tenant of the second one contains the separator. -/
def overlappingRequests : List LimitedRequest :=
  [⟨0, .getEvaluation, "acme", ⟨some "eu:10.0.0.1", none⟩, by decide⟩,
    ⟨1, .getEvaluation, "acme:eu", ⟨some "10.0.0.1", none⟩, by decide⟩]

/-- The second tenant's only request is refused because of the first tenant's. -/
theorem not_isolatesTenants :
    ¬ LimitedRequest.IsolatesTenants { rateLimitReadPerMinute := 1 } overlappingRequests ∧
      (LimitedRequest.decisions { rateLimitReadPerMinute := 1 } { } overlappingRequests).map (·.2) =
        [.ok (), .error (.app .rateLimitExceeded)] ∧
      (LimitedRequest.decisions { rateLimitReadPerMinute := 1 } { }
        (overlappingRequests.filter (·.tenantId = "acme:eu"))).map (·.2) = [.ok ()] := by
  refine ⟨?_, by decide +kernel, by decide +kernel⟩
  intro isolates
  have alone := congrArg (List.map (·.2)) (isolates.decisions "acme:eu")
  revert alone
  decide +kernel

end EvaluationService
