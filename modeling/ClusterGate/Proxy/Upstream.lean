/-
  ClusterGate.Proxy.Upstream — the call to the selected target, and what is told of it
  (`proxyRequest` of `services/proxyService.ts`, from its retry loop on).

  A request may take several attempts. Only a failure is followed by another one; any reply,
  also an error of the target's, is the answer. The breaker, the load balancer and the log
  hear of the request, not of its attempts.
  - `attempts_asked`: which URLs the retry loop asks, how often, and what it makes of it.
  - `request_told_once`: each of the three is told once whether an answer came, and a second
    time only of an answer that could not be passed on to its end.
-/

import ClusterGate.Proxy.TargetHealth
import ClusterGate.Target.Connect

namespace ClusterGate

open Lib Lib.Act

/-! ## What is asked -/

/-- A URL that was asked, and what came of it. -/
abbrev Ask := String × Except Fault Reply

/-- The requests made one after the other from `w`. -/
inductive Asks (send : String → Outbound Reply) : Wire → List Ask → Wire → Prop
  | done (w : Wire) : Asks send w [] w
  | ask (w : Wire) (url : String) (rest : List Ask) (w' : Wire) (later : Asks send (send url w).2 rest w') :
      Asks send w ((url, (send url w).1) :: rest) w'

def Ask.failed (a : Ask) : Bool := !a.2.isOk

/-- Only a failure is followed by another request. -/
def Followed (asks : List Ask) : Prop := ∀ a ∈ asks.dropLast, Ask.failed a = true

/-- What came of the last one. -/
def lastOutcome (lastError : Fault) (asks : List Ask) : Except Fault Reply :=
  match asks.getLast? with
  | none => .error lastError
  | some a => a.2

/-- The URL is asked until there is a reply, `n` times at most. From a failure on that says the
    target speaks plain HTTP its plain URL is asked, the first time without a wait. -/
structure Attempted (n : Nat) (url : String) (asked plains : List Ask) : Prop where
  followed : Followed (asked ++ plains)
  same : ∀ a ∈ asked, a.1 = url
  fallback : plains ≠ [] → ∃ err plain, httpFallback err url = some plain ∧
    asked.getLast? = some (url, .error err) ∧ ∀ a ∈ plains, a.1 = plain
  few : asked.length + plains.length ≤ n + if plains = [] then 0 else 1
  exhausted : (∀ a ∈ asked ++ plains, Ask.failed a = true) → asked.length + plains.length = n + if plains = [] then 0 else 1

section Attempts

variable {send : String → Outbound Reply} {w : Wire} {url : String}

theorem proxyAttempts_succ (n : Nat) (lastError : Fault) : proxyAttempts send (n + 1) lastError url w =
    match send url w with
    | (.ok res, w') => (.ok res, w')
    | (.error err, w') => match httpFallback err url with
      | none => proxyAttempts send n err url w'
      | some plain => match send plain w' with
        | (.ok res, w'') => (.ok res, w'')
        | (.error httpErr, w'') => proxyAttempts send n httpErr plain w'' := by
  rw [proxyAttempts, bind_run, attempt]
  rcases send url w with ⟨res | res, w'⟩
  · dsimp only
    cases httpFallback res url with
    | none => rfl
    | some plain =>
      dsimp only
      rw [bind_run, attempt]
      rcases send plain w' with ⟨res' | res', w''⟩ <;> rfl
  · rfl

/-- The streamed way is the retry loop with one attempt. -/
theorem orHttp_eq (lastError : Fault) : orHttp send url w = proxyAttempts send 1 lastError url w := by
  rw [proxyAttempts_succ, orHttp, bind_run, attempt]
  rcases send url w with ⟨res | res, w'⟩
  · dsimp only
    cases httpFallback res url with
    | none => rfl
    | some plain =>
      dsimp only
      rcases send plain w' with ⟨res' | res', w''⟩ <;> rfl
  · rfl

theorem plain_no_fallback {err err' : Fault} {plain : String} (h : httpFallback err url = some plain) :
    httpFallback err' plain = none := by
  unfold httpFallback at h ⊢
  split at h
  · obtain rfl := Option.some.inj h
    have hstart : Text.startsWith ("http://" ++ Text.slice url 8) "https://" = false := by
      rw [Text.startsWith, String.toList_append]
      rfl
    rw [hstart, Bool.and_false]
    rfl
  · cases h

theorem followed_cons {a : Ask} {asks : List Ask} (ha : Ask.failed a = true) (h : Followed asks) : Followed (a :: asks) := by
  unfold Followed at h ⊢
  cases asks with
  | nil => simp
  | cons b asks =>
    rw [List.dropLast_cons_cons]
    exact List.forall_mem_cons.2 ⟨ha, h⟩

theorem lastOutcome_cons (lastError err : Fault) (url : String) (asks : List Ask) :
    lastOutcome lastError ((url, .error err) :: asks) = lastOutcome err asks := by
  cases asks with
  | nil => rfl
  | cons b asks =>
    unfold lastOutcome
    rw [List.getLast?_cons_cons]
    cases hlast : (b :: asks).getLast? with
    | none => simp at hlast
    | some a => rfl

/-- A URL without a fallback. -/
theorem attempts_same (h : ∀ err, httpFallback err url = none) (n : Nat) (lastError : Fault) (w : Wire) :
    ∃ asks, Asks send w asks (proxyAttempts send n lastError url w).2 ∧ (∀ a ∈ asks, a.1 = url) ∧ Followed asks ∧
      asks.length ≤ n ∧ ((∀ a ∈ asks, Ask.failed a = true) → asks.length = n) ∧
      (proxyAttempts send n lastError url w).1 = lastOutcome lastError asks := by
  induction n generalizing lastError w with
  | zero => exact ⟨[], .done w, by simp, by simp [Followed], Nat.le_refl 0, fun _ => rfl, rfl⟩
  | succ n ih =>
    have hask := @Asks.ask send w url
    rw [proxyAttempts_succ]
    rcases hsend : send url w with ⟨err | res, w'⟩
    · obtain ⟨asks, hasks, hsame, hfollowed, hfew, hall, hresult⟩ := ih err w'
      rw [hsend] at hask
      simp only [h err]
      refine ⟨(url, .error err) :: asks, hask asks _ hasks, ?_, followed_cons rfl hfollowed, ?_, ?_, ?_⟩
      · exact List.forall_mem_cons.2 ⟨rfl, hsame⟩
      · simpa using hfew
      · intro hfailed
        have hrest := hall fun a ha => hfailed a (List.mem_cons_of_mem _ ha)
        simpa using hrest
      · rw [lastOutcome_cons]
        exact hresult
    · rw [hsend] at hask
      refine ⟨[(url, .ok res)], hask [] w' (.done w'), by simp, by simp [Followed], by simp, ?_, rfl⟩
      intro hfailed
      cases hfailed (url, .ok res) List.mem_cons_self

theorem attempts_asked (n : Nat) (lastError : Fault) (w : Wire) :
    ∃ asked plains, Asks send w (asked ++ plains) (proxyAttempts send n lastError url w).2 ∧ Attempted n url asked plains ∧
      (proxyAttempts send n lastError url w).1 = lastOutcome lastError (asked ++ plains) := by
  induction n generalizing lastError w with
  | zero =>
    refine ⟨[], [], .done w, ?_, rfl⟩
    constructor <;> simp [Followed]
  | succ n ih =>
    have hask := @Asks.ask send w url
    rw [proxyAttempts_succ]
    rcases hsend : send url w with ⟨err | res, w'⟩
    · rw [hsend] at hask
      cases hfallback : httpFallback err url with
      | none =>
        obtain ⟨asked, plains, hasks, hattempted, hresult⟩ := ih err w'
        simp only [hfallback]
        refine ⟨(url, .error err) :: asked, plains, hask _ _ hasks, ?_, ?_⟩
        · refine ⟨followed_cons rfl hattempted.followed, List.forall_mem_cons.2 ⟨rfl, hattempted.same⟩, ?_, ?_, ?_⟩
          · intro hplains
            obtain ⟨err', plain, hplain, hlast, hall⟩ := hattempted.fallback hplains
            refine ⟨err', plain, hplain, ?_, hall⟩
            rw [List.getLast?_cons, hlast]
            rfl
          · have hfew := hattempted.few
            rw [List.length_cons]
            omega
          · intro hfailed
            have hall := hattempted.exhausted fun a ha => hfailed a (List.mem_cons_of_mem _ ha)
            rw [List.length_cons]
            omega
        · rw [List.cons_append, lastOutcome_cons]
          exact hresult
      | some plain =>
        -- From here on only the plain URL is asked.
        have hplain := @Asks.ask send w' plain
        rcases hsend' : send plain w' with ⟨httpErr | res, w''⟩
        · rw [hsend'] at hplain
          simp only [hfallback, hsend']
          obtain ⟨asks, hasks, hsame, hfollowed, hfew, hall, hresult⟩ :=
            @attempts_same send plain (fun _ => plain_no_fallback hfallback) n httpErr w''
          refine ⟨[(url, .error err)], (plain, .error httpErr) :: asks, hask _ _ (hplain _ _ hasks), ?_, ?_⟩
          · refine ⟨followed_cons rfl (followed_cons rfl hfollowed), by simp, ?_, ?_, ?_⟩
            · exact fun _ => ⟨err, plain, hfallback, rfl, List.forall_mem_cons.2 ⟨rfl, hsame⟩⟩
            · simp only [List.length_cons, List.length_nil, reduceCtorEq, if_false]
              omega
            · intro hfailed
              have hlength := hall fun a ha => hfailed a (by simp [ha])
              simp only [List.length_cons, List.length_nil, reduceCtorEq, if_false]
              omega
          · rw [List.singleton_append, lastOutcome_cons, lastOutcome_cons]
            exact hresult
        · rw [hsend'] at hplain
          simp only [hfallback, hsend']
          refine ⟨[(url, .error err)], [(plain, .ok res)], hask _ _ (hplain [] _ (.done w'')), ?_, rfl⟩
          refine ⟨followed_cons rfl (by simp [Followed]), by simp, fun _ => ⟨err, plain, hfallback, rfl, by simp⟩, by simp, ?_⟩
          intro hfailed
          cases hfailed (plain, .ok res) (by simp)
    · rw [hsend] at hask
      refine ⟨[(url, .ok res)], [], hask [] w' (.done w'), ?_, rfl⟩
      refine ⟨by simp [Followed], by simp, by simp, by simp, ?_⟩
      intro hfailed
      cases hfailed (url, .ok res) (by simp)

end Attempts

/-! ## What is told -/

inductive Notice
  | breaker (success : Bool)
  | target (id : String) (isHealthy : Bool)
  | routeError (message : String)
  | logged (responseStatus : Option Nat) (error : Option String)
  deriving DecidableEq

structure Upstream where
  wire : Wire
  told : List Notice

/-- What comes of passing the answer on. It may be refused before anything is told of it, where
    a header cannot be set, or break off after that. -/
inductive Handover
  | done
  | refused (message : String)
  | broke (message : String)
  deriving DecidableEq

/-- `message || other` -/
def messageOr (message other : String) : String := if message = "" then other else message

section Program

variable (route : Row) (selectedTargetId : Option String)

def report (t : Notice) : Act Upstream Err Unit := modify fun s => { s with told := s.told ++ [t] }

def tellBreaker (success : Bool) : Act Upstream Err Unit :=
  when (route.flag .circuitBreakerEnabled = true) (report (.breaker success))

def tellTarget (isHealthy : Bool) : Act Upstream Err Unit :=
  match selectedTargetId with
  | none => pure ()
  | some id => report (.target id isHealthy)

def tellAnswered (responseStatus : Nat) : Act Upstream Err Unit := do
  tellBreaker route true
  tellTarget selectedTargetId true
  report (.logged (some responseStatus) none)

def tellFailed (responseStatus : Option Nat) (error : String) : Act Upstream Err Reply := do
  tellBreaker route false
  tellTarget selectedTargetId false
  report (.routeError (messageOr error "Unknown error"))
  report (.logged responseStatus (some error))
  throw (Err.serviceUnavailable ("Proxy error: " ++ messageOr error "Target service unavailable"))

/-- The answer is passed on; `responseStatus` is the one the response transforms leave. -/
def handOver (responseStatus : Nat) (handover : Handover) (res : Reply) : Act Upstream Err Reply :=
  match handover with
  | .done => do
    tellAnswered route selectedTargetId responseStatus
    pure res
  | .refused message => tellFailed route selectedTargetId (some responseStatus) message
  | .broke message => do
    tellAnswered route selectedTargetId responseStatus
    tellFailed route selectedTargetId (some responseStatus) message

/-- `proxyRequest` once a target is selected. -/
def callUpstream (W : World) (selectedTargetUrl path : String) (params : Option String) (streamedBody : Bool)
    (transformStatus : Nat → Nat) (handover : Handover) : Act Upstream Err Reply := fun s =>
  match route.forward W selectedTargetUrl path params streamedBody s.wire with
  | (.error err, wire) => tellFailed route selectedTargetId none err.message { s with wire }
  | (.ok res, wire) => handOver route selectedTargetId (transformStatus res.status) handover res { s with wire }

end Program

/-- How often the loop may ask; a streamed answer is asked for once. -/
def Row.tries (route : Row) (streamedBody : Bool) : Nat :=
  if route.flag .streamResponse then 1 else route.attempts streamedBody

def replied (asks : List Ask) : Bool := asks.getLast?.any fun a => !Ask.failed a

/-- What is to be told: that there was an answer, that there was none. -/
def relayedAs (answered : Bool) (handover : Handover) : Relayed :=
  if answered then
    match handover with
    | .done => .answered
    | .refused _ => .failed
    | .broke _ => .broken false
  else .failed

def Notice.breaker? : Notice → Option Bool
  | .breaker success => some success
  | _ => none

def Notice.target? : Notice → Option (String × Bool)
  | .target id isHealthy => some (id, isHealthy)
  | _ => none

/-- Whether a row of the log is about an answer. -/
def Notice.logged? : Notice → Option Bool
  | .logged _ error => some error.isNone
  | _ => none

def Notice.isRouteError : Notice → Bool
  | .routeError _ => true
  | _ => false

/-- Each of those who hear of a request hears the same of it. -/
structure ToldOnce (route : Row) (selectedTargetId : Option String) (relayed : Relayed) (told : List Notice) : Prop where
  breaker : told.filterMap Notice.breaker? = if route.flag .circuitBreakerEnabled then relayed.marks else []
  targets : told.filterMap Notice.target? = selectedTargetId.toList.flatMap fun id => relayed.marks.map fun isHealthy => (id, isHealthy)
  logged : told.filterMap Notice.logged? = relayed.marks
  notified : told.countP Notice.isRouteError = relayed.marks.count false

section Notices

variable {route : Row} {selectedTargetId : Option String}

/-- What `tellAnswered` and `tellFailed` append. -/
def answeredTold (route : Row) (selectedTargetId : Option String) (responseStatus : Nat) : List Notice :=
  (if route.flag .circuitBreakerEnabled then [.breaker true] else []) ++
    (selectedTargetId.map fun id => Notice.target id true).toList ++ [.logged (some responseStatus) none]

def failedTold (route : Row) (selectedTargetId : Option String) (responseStatus : Option Nat) (error : String) : List Notice :=
  (if route.flag .circuitBreakerEnabled then [.breaker false] else []) ++
    (selectedTargetId.map fun id => Notice.target id false).toList ++
    [.routeError (messageOr error "Unknown error"), .logged responseStatus (some error)]

@[simp] theorem report_run (t : Notice) (s : Upstream) : report t s = (.ok (), { s with told := s.told ++ [t] }) := rfl

@[simp] theorem tellBreaker_run (success : Bool) (s : Upstream) : tellBreaker route success s =
    (.ok (), { s with told := s.told ++ if route.flag .circuitBreakerEnabled then [.breaker success] else [] }) := by
  unfold tellBreaker when
  split
  · rfl
  · rw [List.append_nil]
    rfl

@[simp] theorem tellTarget_run (isHealthy : Bool) (s : Upstream) : tellTarget selectedTargetId isHealthy s =
    (.ok (), { s with told := s.told ++ (selectedTargetId.map fun id => Notice.target id isHealthy).toList }) := by
  cases selectedTargetId with
  | none =>
    rw [Option.map_none, Option.toList_none, List.append_nil]
    rfl
  | some id => rfl

theorem tellAnswered_run (responseStatus : Nat) (s : Upstream) : tellAnswered route selectedTargetId responseStatus s =
    (.ok (), { s with told := s.told ++ answeredTold route selectedTargetId responseStatus }) := by
  simp [tellAnswered, answeredTold, bind_run]

theorem tellFailed_run (responseStatus : Option Nat) (error : String) (s : Upstream) :
    tellFailed route selectedTargetId responseStatus error s =
      (.error (Err.serviceUnavailable ("Proxy error: " ++ messageOr error "Target service unavailable")),
        { s with told := s.told ++ failedTold route selectedTargetId responseStatus error }) := by
  simp only [tellFailed, failedTold, bind_run, tellBreaker_run, tellTarget_run, report_run, List.append_assoc,
    List.cons_append, List.nil_append]
  rfl

theorem answered_once (responseStatus : Nat) :
    ToldOnce route selectedTargetId .answered (answeredTold route selectedTargetId responseStatus) := by
  by_cases h : route.flag .circuitBreakerEnabled = true
  · constructor <;> cases selectedTargetId <;> simp only [answeredTold, h, if_true] <;> rfl
  · constructor <;> cases selectedTargetId <;> simp only [answeredTold, h] <;> rfl

theorem failed_once (responseStatus : Option Nat) (error : String) :
    ToldOnce route selectedTargetId .failed (failedTold route selectedTargetId responseStatus error) := by
  by_cases h : route.flag .circuitBreakerEnabled = true
  · constructor <;> cases selectedTargetId <;> simp only [failedTold, h, if_true] <;> rfl
  · constructor <;> cases selectedTargetId <;> simp only [failedTold, h] <;> rfl

/-- An answer, and then a failure. -/
theorem broken_once {first second : List Notice} (h : ToldOnce route selectedTargetId .answered first)
    (h' : ToldOnce route selectedTargetId .failed second) : ToldOnce route selectedTargetId (.broken false) (first ++ second) := by
  refine ⟨?_, ?_, ?_, ?_⟩
  · rw [List.filterMap_append, h.breaker, h'.breaker]
    split <;> rfl
  · rw [List.filterMap_append, h.targets, h'.targets]
    cases selectedTargetId <;> rfl
  · rw [List.filterMap_append, h.logged, h'.logged]
    rfl
  · rw [List.countP_append, h.notified, h'.notified]
    rfl

end Notices

theorem forward_eq (W : World) (route : Row) (selectedTargetUrl path : String) (params : Option String) (streamedBody : Bool)
    (w : Wire) : route.forward W selectedTargetUrl path params streamedBody w =
      proxyAttempts (request W (safeLookup W)) (route.tries streamedBody) ⟨"", "No response received"⟩
        (resolvedUrl selectedTargetUrl (route.targetPath W path) params) w := by
  unfold Row.forward Row.tries
  split
  · exact orHttp_eq _
  · rfl

theorem lastOutcome_replied (lastError : Fault) (asks : List Ask) :
    replied asks = (lastOutcome lastError asks).isOk := by
  unfold replied lastOutcome
  cases asks.getLast? with
  | none => rfl
  | some a => simp [Ask.failed]

theorem request_told_once (W : World) (route : Row) (selectedTargetId : Option String) (selectedTargetUrl path : String)
    (params : Option String) (streamedBody : Bool) (transformStatus : Nat → Nat) (handover : Handover) (s : Upstream) :
    let run := callUpstream route selectedTargetId W selectedTargetUrl path params streamedBody transformStatus handover s
    ∃ asked plains told, Asks (request W (safeLookup W)) s.wire (asked ++ plains) run.2.wire ∧
      Attempted (route.tries streamedBody) (resolvedUrl selectedTargetUrl (route.targetPath W path) params) asked plains ∧
      run.2.told = s.told ++ told ∧
      ToldOnce route selectedTargetId (relayedAs (replied (asked ++ plains)) handover) told ∧
      (run.1.isOk = true ↔ replied (asked ++ plains) = true ∧ handover = .done) := by
  obtain ⟨asked, plains, hasks, hattempted, hresult⟩ := @attempts_asked (request W (safeLookup W))
    (resolvedUrl selectedTargetUrl (route.targetPath W path) params) (route.tries streamedBody) ⟨"", "No response received"⟩ s.wire
  have hreplied := lastOutcome_replied ⟨"", "No response received"⟩ (asked ++ plains)
  rw [← hresult] at hreplied
  rw [← forward_eq] at hasks hreplied
  intro run
  have hrun : run = callUpstream route selectedTargetId W selectedTargetUrl path params streamedBody transformStatus handover s := rfl
  unfold callUpstream at hrun
  rcases hforward : route.forward W selectedTargetUrl path params streamedBody s.wire with ⟨err | res, wire⟩
  · simp only [hforward, tellFailed_run] at hrun hasks hreplied
    refine ⟨asked, plains, _, by rw [hrun]; exact hasks, hattempted, by rw [hrun], ?_, ?_⟩
    · rw [hreplied]
      exact failed_once none err.message
    · rw [hrun, hreplied]
      simp [Except.isOk, Except.toBool]
  · simp only [hforward] at hrun hasks hreplied
    have hanswered := @answered_once route selectedTargetId (transformStatus res.status)
    cases handover with
    | done =>
      simp only [handOver, bind_run, tellAnswered_run] at hrun
      refine ⟨asked, plains, _, by rw [hrun]; exact hasks, hattempted, by rw [hrun]; rfl, ?_, ?_⟩
      · rw [hreplied]
        exact hanswered
      · rw [hrun, hreplied]
        simp [pure, Except.isOk, Except.toBool]
    | refused message =>
      simp only [handOver, tellFailed_run] at hrun
      refine ⟨asked, plains, _, by rw [hrun]; exact hasks, hattempted, by rw [hrun], ?_, ?_⟩
      · rw [hreplied]
        exact failed_once _ message
      · rw [hrun]
        simp [Except.isOk, Except.toBool]
    | broke message =>
      simp only [handOver, bind_run, tellAnswered_run, tellFailed_run, List.append_assoc] at hrun
      refine ⟨asked, plains, _, by rw [hrun]; exact hasks, hattempted, by rw [hrun], ?_, ?_⟩
      · rw [hreplied]
        exact broken_once hanswered (failed_once _ message)
      · rw [hrun]
        simp [Except.isOk, Except.toBool]

end ClusterGate
