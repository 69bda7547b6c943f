import OtelLogger.Delivery

/-!
How often and when one batch is tried. The loop runs against what it meets: what each attempt
comes back with, how long everything takes, and when the token is cancelled. Times are in
nanoseconds.
-/

namespace OtelLogger

/-! ### Which failures are retried -/

inductive GrpcCode where
  | ok
  | cancelled
  | unknown
  | invalidArgument
  | deadlineExceeded
  | notFound
  | alreadyExists
  | permissionDenied
  | resourceExhausted
  | failedPrecondition
  | aborted
  | outOfRange
  | unimplemented
  | internal
  | unavailable
  | dataLoss
  | unauthenticated

/-- An error of the client. A status carries the `RetryInfo` found in it, and whether the
transport made it and not the upstream. -/
inductive ExportError where
  | http (status : ℕ) (retryAfter : Option ℕ)
  | grpc (code : GrpcCode) (retryInfo : Option ℕ) (transportFailure : Bool)
  | request
  | other

/-- The least time to wait before the next attempt, if there may be one. -/
def retryDelay : ExportError → Option ℕ
  | .http status retryAfter =>
      if status = 429 ∨ status = 502 ∨ status = 503 ∨ status = 504 then some (retryAfter.getD 0)
      else none
  | .grpc code retryInfo transportFailure =>
      match code with
      | .cancelled | .deadlineExceeded | .aborted | .outOfRange | .unavailable | .dataLoss =>
          some (retryInfo.getD 0)
      | .resourceExhausted => retryInfo
      | .unknown | .internal => if transportFailure then some 0 else none
      | _ => none
  | .request => some 0
  | .other => none

/-! ### The loop -/

/-- What the loop meets. ExportAttempt `i` is polled `pollLate i` after the loop reached it and
completes `exportTime i` later; the pause after it ends `wakeLate i` after its time. -/
structure Surroundings where
  outcome : ℕ → Except ExportError Unit
  exportTime : ℕ → ℕ
  pollLate : ℕ → ℕ
  wakeLate : ℕ → ℕ
  cancelAt : Option ℕ

/-- Whether the token shows as cancelled at a time. -/
def Surroundings.cancelledBy (env : Surroundings) (now : ℕ) : Bool :=
  match env.cancelAt with
  | none => false
  | some cancelled => cancelled ≤ now

/-- An attempt that was started, without an outcome when it was given up. -/
structure ExportAttempt where
  start : ℕ
  finish : ℕ
  outcome : Option (Except ExportError Unit)

inductive SendError where
  | cancelled
  | failed (error : ExportError)
  | unknown

structure SendRun where
  made : List ExportAttempt
  result : Except SendError Unit

def initialDelay : ℕ := 200000000

def maxDelay : ℕ := 30000000000

/-- The rounds of the loop. The pause is not biased: a token that is cancelled as the timer fires
may still let it end, and is found cancelled at the top of the next round. -/
def sendRounds (env : Surroundings) (attempts : ℕ) :
    (remaining attempt delay now : ℕ) → (lastErr : Option ExportError) → SendRun
  | 0, _, _, _, lastErr =>
      { made := [], result := .error (lastErr.elim .unknown .failed) }
  | remaining + 1, attempt, delay, now, _ =>
      if env.cancelledBy now then { made := [], result := .error .cancelled }
      else
        let start := now + env.pollLate attempt
        if env.cancelledBy start then { made := [], result := .error .cancelled }
        else
          let finish := start + env.exportTime attempt
          if env.cancelledBy finish then
            { made := [{ start := start, finish := finish, outcome := none }]
              result := .error .cancelled }
          else
            let tried : ExportAttempt :=
              { start := start, finish := finish, outcome := some (env.outcome attempt) }
            match env.outcome attempt with
            | .ok () => { made := [tried], result := .ok () }
            | .error error =>
                let retryAfter := retryDelay error
                if attempt + 1 ≥ attempts ∨ retryAfter = none then
                  { made := [tried], result := .error (.failed error) }
                else
                  let woken := finish + max delay (retryAfter.getD 0) + env.wakeLate attempt
                  if env.cancelledBy woken then { made := [tried], result := .error .cancelled }
                  else
                    let rest := sendRounds env attempts remaining (attempt + 1)
                      (min (delay * 2) maxDelay) woken (some error)
                    { rest with made := tried :: rest.made }

def sendWithRetry (env : Surroundings) (retryMax : ℕ) : SendRun :=
  sendRounds env (attempts retryMax) (attempts retryMax) 0 initialDelay 0 none

/-! ### Rounds -/

theorem Surroundings.cancelledBy_mono {env : Surroundings} {earlier later : ℕ}
    (cancelled : env.cancelledBy earlier = true) (ordered : earlier ≤ later) :
    env.cancelledBy later = true := by
  unfold cancelledBy at *
  cases at' : env.cancelAt with
  | none => simp [at'] at cancelled
  | some time =>
      simp only [at', decide_eq_true_eq] at cancelled ⊢
      omega

theorem Surroundings.not_cancelledBy_of_le {env : Surroundings} {earlier later : ℕ}
    (free : env.cancelledBy later = false) (ordered : earlier ≤ later) :
    env.cancelledBy earlier = false := by
  rw [← Bool.not_eq_true] at *
  exact fun cancelled => free (env.cancelledBy_mono cancelled ordered)

/-- The pause before attempt `i + 1`, if the failure asks for no longer one. -/
def backoff (attempt : ℕ) : ℕ :=
  min (initialDelay * 2 ^ attempt) maxDelay

theorem backoff_zero : backoff 0 = initialDelay := by decide

theorem backoff_succ (attempt : ℕ) :
    min (backoff attempt * 2) maxDelay = backoff (attempt + 1) := by
  unfold backoff maxDelay
  rw [pow_succ, ← mul_assoc]
  omega

/-- Nothing is tried after this outcome of an attempt. -/
def Final (limit attempt : ℕ) (outcome : Except ExportError Unit) : Prop :=
  outcome = .ok () ∨ ∃ error, outcome = .error error ∧
    (limit ≤ attempt + 1 ∨ retryDelay error = none)

def sendResult : Except ExportError Unit → Except SendError Unit
  | .ok () => .ok ()
  | .error error => .error (.failed error)

def Surroundings.start (env : Surroundings) (attempt now : ℕ) : ℕ :=
  now + env.pollLate attempt

def Surroundings.finish (env : Surroundings) (attempt now : ℕ) : ℕ :=
  env.start attempt now + env.exportTime attempt

def Surroundings.made (env : Surroundings) (attempt now : ℕ)
    (outcome : Option (Except ExportError Unit)) : ExportAttempt where
  start := env.start attempt now
  finish := env.finish attempt now
  outcome := outcome

/-- How the sending of a batch goes on from an attempt that may start at a time. -/
inductive Sends (env : Surroundings) (limit : ℕ) : (attempt now : ℕ) → SendRun → Prop
  | stopped {attempt now : ℕ} (cancelled : env.cancelledBy (env.start attempt now) = true) :
      Sends env limit attempt now { made := [], result := .error .cancelled }
  | interrupted {attempt now : ℕ} (started : env.cancelledBy (env.start attempt now) = false)
      (cancelled : env.cancelledBy (env.finish attempt now) = true) :
      Sends env limit attempt now
        { made := [env.made attempt now none]
          result := .error .cancelled }
  | ended {attempt now : ℕ} (finished : env.cancelledBy (env.finish attempt now) = false)
      (final : Final limit attempt (env.outcome attempt)) :
      Sends env limit attempt now
        { made := [env.made attempt now (some (env.outcome attempt))]
          result := sendResult (env.outcome attempt) }
  | retried {attempt now wait : ℕ} {error : ExportError} {rest : SendRun}
      (finished : env.cancelledBy (env.finish attempt now) = false)
      (failed : env.outcome attempt = .error error) (retryable : retryDelay error = some wait)
      (more : attempt + 1 < limit)
      (later : Sends env limit (attempt + 1)
        (env.finish attempt now + max (backoff attempt) wait + env.wakeLate attempt) rest) :
      Sends env limit attempt now
        { made := env.made attempt now (some (env.outcome attempt)) :: rest.made
          result := rest.result }

section Rounds

variable {env : Surroundings} {limit : ℕ}

/-- One round of the loop, given how it goes on after a pause. -/
theorem sendRounds_round {remaining attempt : ℕ}
    (later : attempt + 1 < limit → ∀ (woken : ℕ) (error : ExportError),
      Sends env limit (attempt + 1) woken
        (sendRounds env limit remaining (attempt + 1) (backoff (attempt + 1)) woken
          (some error)))
    (now : ℕ) (lastErr : Option ExportError) :
    Sends env limit attempt now
      (sendRounds env limit (remaining + 1) attempt (backoff attempt) now lastErr) := by
  have startLe : now ≤ env.start attempt now := Nat.le_add_right _ _
  have finishLe : env.start attempt now ≤ env.finish attempt now := Nat.le_add_right _ _
  simp only [sendRounds]
  split
  · rename_i top
    exact .stopped (env.cancelledBy_mono top startLe)
  · split
    · rename_i cancelled
      exact .stopped cancelled
    · rename_i started
      split
      · rename_i cancelled
        exact .interrupted (Bool.eq_false_iff.mpr started) cancelled
      · rename_i finished
        replace finished := Bool.eq_false_iff.mpr finished
        cases outcome : env.outcome attempt with
        | ok result =>
            have ended : Sends env limit attempt now _ := .ended finished (Or.inl outcome)
            rwa [outcome] at ended
        | error error =>
            dsimp only
            split
            · rename_i stops
              have ended := Sends.ended finished (Or.inr ⟨error, outcome, stops⟩)
              rwa [outcome] at ended
            · rename_i goesOn
              rw [not_or, not_le] at goesOn
              obtain ⟨wait, retryable⟩ := Option.ne_none_iff_exists'.mp goesOn.2
              rw [backoff_succ, retryable, Option.getD_some]
              have woken (rest : SendRun) := @Sends.retried env limit attempt now wait error rest
                finished outcome retryable goesOn.1
              rw [outcome] at woken
              split
              · rename_i cancelled
                refine woken _ (.stopped (env.cancelledBy_mono cancelled ?_))
                exact Nat.le_add_right _ _
              · exact woken _ (later goesOn.1 _ error)

theorem sendRounds_sends (remaining : ℕ) :
    ∀ (attempt now : ℕ) (lastErr : Option ExportError), attempt + (remaining + 1) = limit →
      Sends env limit attempt now
        (sendRounds env limit (remaining + 1) attempt (backoff attempt) now lastErr) := by
  induction remaining with
  | zero =>
      intro attempt now lastErr bound
      apply sendRounds_round
      intro more
      omega
  | succ remaining ih =>
      intro attempt now lastErr bound
      apply sendRounds_round
      intro more woken error
      apply ih
      omega

theorem sendWithRetry_sends (env : Surroundings) (retryMax : ℕ) :
    Sends env (attempts retryMax) 0 0 (sendWithRetry env retryMax) := by
  obtain ⟨remaining, count⟩ : ∃ remaining, attempts retryMax = remaining + 1 := by
    refine ⟨attempts retryMax - 1, ?_⟩
    unfold attempts
    omega
  have sends := @sendRounds_sends env (attempts retryMax) remaining 0 0 none (by omega)
  rwa [← count, backoff_zero] at sends

end Rounds

/-! ### What a run shows -/

/-- A failure after which the upstream allows another attempt. -/
def Retryable (outcome : Except ExportError Unit) : Prop :=
  ∃ error wait, outcome = .error error ∧ retryDelay error = some wait

theorem Final.le_of_retryable {limit attempt : ℕ} {outcome : Except ExportError Unit}
    (final : Final limit attempt outcome) (retryable : Retryable outcome) : limit ≤ attempt + 1 := by
  obtain ⟨error, wait, rfl, allowed⟩ := retryable
  rcases final with done | ⟨failure, same, stops⟩
  · simp at done
  · obtain rfl := Except.error.inj same
    rcases stops with last | never
    · exact last
    · simp [allowed] at never

namespace Sends

variable {env : Surroundings} {limit attempt now : ℕ} {run : SendRun}

theorem length_le (sends : Sends env limit attempt now run) (below : attempt < limit) :
    attempt + run.made.length ≤ limit := by
  induction sends with
  | stopped => exact below.le
  | interrupted => exact below
  | ended => exact below
  | retried _ _ _ more _ ih =>
      have later := ih more
      rw [List.length_cons]
      omega

theorem start_le (sends : Sends env limit attempt now run) {first : ExportAttempt}
    (found : run.made[0]? = some first) : now ≤ first.start := by
  cases sends with
  | stopped => simp at found
  | interrupted | ended | retried =>
      rw [List.getElem?_cons_zero] at found
      rw [← Option.some.inj found]
      exact Nat.le_add_right _ _

/-- An attempt starts under a token that is not cancelled, and has its outcome unless it was given
up for a cancelled token. -/
theorem attempt_made (sends : Sends env limit attempt now run) :
    ∀ (i : ℕ) (tried : ExportAttempt), run.made[i]? = some tried →
      env.cancelledBy tried.start = false ∧
        (tried.outcome = some (env.outcome (attempt + i)) ∨
          tried.outcome = none ∧ i + 1 = run.made.length ∧ run.result = .error .cancelled) := by
  induction sends with
  | stopped =>
      intro i tried found
      simp at found
  | interrupted started cancelled =>
      intro i tried found
      cases i with
      | zero =>
          obtain rfl := Option.some.inj found
          exact ⟨started, Or.inr ⟨rfl, rfl, rfl⟩⟩
      | succ i => simp at found
  | ended finished final =>
      intro i tried found
      cases i with
      | zero =>
          obtain rfl := Option.some.inj found
          exact ⟨env.not_cancelledBy_of_le finished (Nat.le_add_right _ _), Or.inl rfl⟩
      | succ i => simp at found
  | @retried attempt now wait error rest finished failed retryable more later ih =>
      intro i tried found
      cases i with
      | zero =>
          obtain rfl := Option.some.inj found
          exact ⟨env.not_cancelledBy_of_le finished (Nat.le_add_right _ _), Or.inl rfl⟩
      | succ i =>
          rw [List.getElem?_cons_succ] at found
          obtain ⟨started, own⟩ := ih i tried found
          rw [List.length_cons, ← Nat.add_assoc, Nat.add_right_comm]
          simpa using ⟨started, own⟩

/-- The next attempt follows a retryable failure, after its pause. -/
theorem attempt_next (sends : Sends env limit attempt now run) :
    ∀ (i : ℕ) (tried next : ExportAttempt), run.made[i]? = some tried → run.made[i + 1]? = some next →
      ∃ error wait, tried.outcome = some (.error error) ∧ env.outcome (attempt + i) = .error error ∧
        retryDelay error = some wait ∧
        tried.finish + max (backoff (attempt + i)) wait ≤ next.start := by
  induction sends with
  | stopped =>
      intro i tried next found
      simp at found
  | interrupted | ended =>
      intro i tried next found following
      simp at following
  | @retried attempt now wait error rest finished failed retryable more later ih =>
      intro i tried next found following
      rw [List.getElem?_cons_succ] at following
      cases i with
      | zero =>
          obtain rfl := Option.some.inj found
          refine ⟨error, wait, congrArg some failed, failed, retryable, ?_⟩
          have woken := later.start_le following
          rw [Nat.add_zero]
          exact (Nat.le_add_right _ _).trans woken
      | succ i =>
          rw [List.getElem?_cons_succ] at found
          have own := ih i tried next found following
          rwa [Nat.add_right_comm, Nat.add_assoc] at own

/-- The result is that of the last attempt, or the cancellation. -/
theorem result_cases (sends : Sends env limit attempt now run) :
    (∃ last outcome, run.made.getLast? = some last ∧ last.outcome = some outcome ∧
      run.result = sendResult outcome) ∨
    (run.result = .error .cancelled ∧
      ∀ last, run.made.getLast? = some last → last.outcome ≠ some (.ok ())) := by
  induction sends with
  | stopped => exact Or.inr ⟨rfl, by simp⟩
  | interrupted =>
      refine Or.inr ⟨rfl, ?_⟩
      intro last found
      obtain rfl := Option.some.inj found
      simp [Surroundings.made]
  | ended => exact Or.inl ⟨_, _, rfl, rfl, rfl⟩
  | @retried attempt now wait error rest finished failed retryable more later ih =>
      rw [List.getLast?_cons]
      rcases ih with ⟨last, outcome, found, completed, result⟩ | ⟨cancelled, ih⟩
      · exact Or.inl ⟨last, outcome, by rw [found, Option.getD_some], completed, result⟩
      · refine Or.inr ⟨cancelled, ?_⟩
        intro last found
        obtain rfl := Option.some.inj found
        cases others : rest.made.getLast? with
        | none => simp [Surroundings.made, failed]
        | some final => exact ih final others

theorem result_ok_iff (sends : Sends env limit attempt now run) :
    run.result = .ok () ↔ ∃ last, run.made.getLast? = some last ∧ last.outcome = some (.ok ()) := by
  rcases sends.result_cases with ⟨last, outcome, found, completed, result⟩ | ⟨cancelled, failed⟩
  · rw [result]
    constructor
    · intro sent
      cases outcome with
      | ok => exact ⟨last, found, completed⟩
      | error error => simp [sendResult] at sent
    · rintro ⟨final, own, sent⟩
      obtain rfl := Option.some.inj (found.symm.trans own)
      obtain rfl := Option.some.inj (completed.symm.trans sent)
      rfl
  · rw [cancelled]
    simp only [reduceCtorEq, false_iff]
    rintro ⟨final, own, sent⟩
    exact failed final own sent

theorem result_failed (sends : Sends env limit attempt now run) (notSent : run.result ≠ .ok ())
    (notCancelled : run.result ≠ .error .cancelled) :
    ∃ last error, run.made.getLast? = some last ∧ last.outcome = some (.error error) ∧
      run.result = .error (.failed error) := by
  rcases sends.result_cases with ⟨last, outcome, found, completed, result⟩ | ⟨cancelled, _⟩
  · cases outcome with
    | ok => exact absurd result notSent
    | error error => exact ⟨last, error, found, completed, result⟩
  · exact absurd cancelled notCancelled

/-- Without a cancellation the last attempt is the one after which nothing is tried. -/
theorem final_last (sends : Sends env limit attempt now run) (never : env.cancelAt = none) :
    ∃ n last, run.made.length = n + 1 ∧ run.made.getLast? = some last ∧
      env.finish attempt now ≤ last.finish ∧ Final limit (attempt + n) (env.outcome (attempt + n)) := by
  have uncancelled (time : ℕ) : env.cancelledBy time = false := by
    rw [Surroundings.cancelledBy, never]
  induction sends with
  | stopped cancelled | interrupted _ cancelled => simp [uncancelled] at cancelled
  | ended _ final => exact ⟨0, _, rfl, rfl, le_rfl, final⟩
  | @retried attempt now wait error rest finished failed retryable more later ih =>
      obtain ⟨n, last, length, found, ordered, final⟩ := ih
      refine ⟨n + 1, last, by rw [List.length_cons, length], ?_, ?_, ?_⟩
      · rw [List.getLast?_cons, found, Option.getD_some]
      · refine le_trans ?_ ordered
        unfold Surroundings.finish Surroundings.start
        omega
      · rwa [Nat.add_right_comm, Nat.add_assoc] at final

/-- A cancellation changes something exactly when it comes before the final outcome. -/
theorem cancelled_iff (sends : Sends env limit attempt now run) {whole : SendRun}
    (unhindered : Sends { env with cancelAt := none } limit attempt now whole) {last : ExportAttempt}
    (final : whole.made.getLast? = some last) :
    if env.cancelledBy last.finish then run.result = .error .cancelled
    else run = whole ∧ run.result ≠ .error .cancelled := by
  have latest {attempt now : ℕ} {whole : SendRun} {last : ExportAttempt}
      (unhindered : Sends { env with cancelAt := none } limit attempt now whole)
      (final : whole.made.getLast? = some last) : env.finish attempt now ≤ last.finish := by
    obtain ⟨n, own, _, found, ordered, _⟩ := unhindered.final_last rfl
    obtain rfl := Option.some.inj (found.symm.trans final)
    exact ordered
  induction sends generalizing whole last with
  | stopped cancelled =>
      have late := env.cancelledBy_mono cancelled
        ((Nat.le_add_right _ _).trans (latest unhindered final))
      rw [if_pos late]
  | interrupted _ cancelled =>
      rw [if_pos (env.cancelledBy_mono cancelled (latest unhindered final))]
  | @ended attempt now finished stops =>
      cases unhindered with
      | stopped cancelled | interrupted _ cancelled => simp [Surroundings.cancelledBy] at cancelled
      | ended =>
          obtain rfl := Option.some.inj final
          have free : ¬env.cancelledBy (env.finish attempt now) = true := by simp [finished]
          refine (if_neg free).symm ▸ ⟨rfl, ?_⟩
          cases env.outcome attempt <;> simp [sendResult]
      | retried _ failed retryable more _ =>
          have last := stops.le_of_retryable ⟨_, _, failed, retryable⟩
          omega
  | @retried attempt now wait error rest finished failed retryable more later ih =>
      cases unhindered with
      | stopped cancelled | interrupted _ cancelled => simp [Surroundings.cancelledBy] at cancelled
      | ended _ stops =>
          have last := stops.le_of_retryable ⟨_, _, failed, retryable⟩
          omega
      | @retried _ _ ownWait ownError ownRest _ ownFailed ownRetryable _ ownLater =>
          obtain rfl := Except.error.inj (failed.symm.trans ownFailed)
          obtain rfl := Option.some.inj (retryable.symm.trans ownRetryable)
          obtain ⟨n, ownLast, _, found, _⟩ := ownLater.final_last rfl
          rw [List.getLast?_cons, found, Option.getD_some] at final
          obtain rfl := Option.some.inj final
          have same := ih ownLater found
          split
          · rename_i cancelled
            rwa [if_pos cancelled] at same
          · rename_i free
            rw [if_neg free] at same
            exact ⟨by rw [same.1]; rfl, same.2⟩

/-- Without a cancellation the first outcome that is not a retryable failure is the last one. -/
theorem length_eq (sends : Sends env limit 0 now run) (below : 0 < limit)
    (never : env.cancelAt = none) {n : ℕ} (failed : ∀ j, j < n → Retryable (env.outcome j))
    (stops : ¬Retryable (env.outcome n)) : run.made.length = min limit (n + 1) := by
  obtain ⟨last, _, length, _, _, final⟩ := sends.final_last never
  have bound := sends.length_le below
  have retried (j : ℕ) (earlier : j < last) : Retryable (env.outcome j) := by
    have first : j < run.made.length := by omega
    have second : j + 1 < run.made.length := by omega
    obtain ⟨error, wait, _, outcome, retryable, _⟩ := sends.attempt_next j _ _
      (List.getElem?_eq_getElem first) (List.getElem?_eq_getElem second)
    rw [Nat.zero_add] at outcome
    exact ⟨error, wait, outcome, retryable⟩
  rw [Nat.zero_add] at final
  have notLater : ¬n < last := fun later => stops (retried n later)
  by_cases before : last < n
  · have ends := final.le_of_retryable (failed last before)
    omega
  · omega

theorem length_eq_limit (sends : Sends env limit 0 now run) (below : 0 < limit)
    (never : env.cancelAt = none) (failed : ∀ j, Retryable (env.outcome j)) :
    run.made.length = limit := by
  obtain ⟨last, _, length, _, _, final⟩ := sends.final_last never
  have bound := sends.length_le below
  rw [Nat.zero_add] at final
  have ends := final.le_of_retryable (failed last)
  omega

end Sends

/-- For every sequence of outcomes and every cancellation time: how many attempts are made, when
and after what each starts, and what is returned. -/
theorem send_with_retry_schedule (retryMax : ℕ) (env : Surroundings) :
    let run := sendWithRetry env retryMax
    let whole := sendWithRetry { env with cancelAt := none } retryMax
    let bound := min (retryMax + 1) (2 ^ 32 - 1)
    run.made.length ≤ bound ∧
      (∀ (i : ℕ) (tried : ExportAttempt), run.made[i]? = some tried →
        env.cancelledBy tried.start = false ∧
          (tried.outcome = some (env.outcome i) ∨
            tried.outcome = none ∧ i + 1 = run.made.length ∧
              run.result = .error .cancelled)) ∧
      (∀ (i : ℕ) (tried next : ExportAttempt), run.made[i]? = some tried →
        run.made[i + 1]? = some next →
          (∀ j, j ≤ i → Retryable (env.outcome j)) ∧
            ∃ error wait, tried.outcome = some (.error error) ∧ retryDelay error = some wait ∧
              tried.finish + max (min (200000000 * 2 ^ i) 30000000000) wait ≤ next.start) ∧
      (run.result = .ok () ↔
        ∃ last, run.made.getLast? = some last ∧ last.outcome = some (.ok ())) ∧
      (∃ last, whole.made.getLast? = some last ∧
        (run.result = .error .cancelled ↔ env.cancelledBy last.finish = true)) ∧
      (run.result ≠ .ok () → run.result ≠ .error .cancelled →
        ∃ last error, run.made.getLast? = some last ∧ last.outcome = some (.error error) ∧
          run.result = .error (.failed error)) ∧
      (env.cancelAt = none →
        (∀ n, (∀ j, j < n → Retryable (env.outcome j)) → ¬Retryable (env.outcome n) →
          run.made.length = min bound (n + 1)) ∧
        ((∀ j, Retryable (env.outcome j)) → run.made.length = bound)) := by
  intro run whole bound
  have sends : Sends env bound 0 0 run := sendWithRetry_sends env retryMax
  have unhindered : Sends { env with cancelAt := none } bound 0 0 whole :=
    sendWithRetry_sends _ retryMax
  have below : 0 < bound := by
    change 0 < min (retryMax + 1) (2 ^ 32 - 1)
    omega
  refine ⟨?_, ?_, ?_, sends.result_ok_iff, ?_, sends.result_failed, ?_⟩
  · have length := sends.length_le below
    rwa [Nat.zero_add] at length
  · intro i tried found
    have own := sends.attempt_made i tried found
    rwa [Nat.zero_add] at own
  · intro i tried next found following
    obtain ⟨error, wait, failed, _, retryable, pause⟩ := sends.attempt_next i tried next found
      following
    rw [Nat.zero_add] at pause
    refine ⟨?_, error, wait, failed, retryable, pause⟩
    intro j earlier
    have reached : i + 1 < run.made.length := (List.getElem?_eq_some_iff.mp following).1
    have first : j < run.made.length := by omega
    have second : j + 1 < run.made.length := by omega
    obtain ⟨failure, time, _, outcome, allowed, _⟩ := sends.attempt_next j _ _
      (List.getElem?_eq_getElem first) (List.getElem?_eq_getElem second)
    rw [Nat.zero_add] at outcome
    exact ⟨failure, time, outcome, allowed⟩
  · obtain ⟨_, last, _, final, _⟩ := unhindered.final_last rfl
    refine ⟨last, final, ?_⟩
    have seen := sends.cancelled_iff unhindered final
    split at seen
    · rename_i cancelled
      exact ⟨fun _ => cancelled, fun _ => seen⟩
    · rename_i free
      exact ⟨fun cancelled => absurd cancelled seen.2, fun cancelled => absurd cancelled free⟩
  · intro never
    exact ⟨fun n => sends.length_eq below never, sends.length_eq_limit below never⟩

/-- Two unavailable answers, the second asking for a minute, and a success. -/
def unavailableTwice : Surroundings where
  outcome attempt :=
    if attempt = 0 then .error (.http 503 none)
    else if attempt = 1 then .error (.grpc .resourceExhausted (some 60000000000) false)
    else .ok ()
  exportTime _ := 1000000
  pollLate _ := 0
  wakeLate _ := 0
  cancelAt := none

theorem send_with_retry_schedule_unavailable :
    (sendWithRetry unavailableTwice 8).made.length = 3 ∧
      (sendWithRetry unavailableTwice 1).made.length = 2 := by
  have failed : ∀ j, j < 2 → Retryable (unavailableTwice.outcome j) := by
    intro j earlier
    obtain rfl | rfl : j = 0 ∨ j = 1 := by omega
    · exact ⟨_, 0, rfl, rfl⟩
    · exact ⟨_, 60000000000, rfl, rfl⟩
  have sent : ¬Retryable (unavailableTwice.outcome 2) := by
    rintro ⟨error, wait, same, _⟩
    simp [unavailableTwice] at same
  obtain ⟨_, _, _, _, _, _, exactCount⟩ := send_with_retry_schedule 8 unavailableTwice
  obtain ⟨_, _, _, _, _, _, bounded⟩ := send_with_retry_schedule 1 unavailableTwice
  exact ⟨(exactCount rfl).1 2 failed sent, (bounded rfl).1 2 failed sent⟩

/-! ### The stages of a batch -/

def Sending.runFrom (retryMax : ℕ) (sending : Sending) :
    List (Bool × SendAction) → Option (Sending ⊕ SendResult)
  | [] => some (.inl sending)
  | (cancelled, action) :: rest =>
      match sending.step retryMax cancelled action with
      | some (.inl next) => next.runFrom retryMax rest
      | some (.inr result) => if rest.isEmpty then some (.inr result) else none
      | none => none

def sendResultOf : Except SendError Unit → SendResult
  | .ok () => .sent
  | .error .cancelled => .cancelled
  | .error _ => .failed

/-- An outcome as the route sees it, the wait in its milliseconds. -/
def exportOutcomeOf : Except ExportError Unit → ExportOutcome
  | .ok () => .ok
  | .error error => .failed ((retryDelay error).map fun wait => wait / 1000000)

/-- The route takes a batch through the same stages and ends with the same result. -/
theorem Sends.runFrom {env : Surroundings} {retryMax attempt now : ℕ} {run : SendRun}
    (sends : Sends env (attempts retryMax) attempt now run) :
    ∀ sending : Sending, sending.attempt = attempt → sending.stage = .ready →
      ∃ steps, sending.runFrom retryMax steps = some (.inr (sendResultOf run.result)) := by
  induction sends with
  | stopped cancelled =>
      intro sending _ ready
      refine ⟨[(true, .start)], ?_⟩
      simp [Sending.runFrom, Sending.step, ready, sendResultOf]
  | interrupted started cancelled =>
      intro sending _ ready
      refine ⟨[(false, .start), (true, .interrupt)], ?_⟩
      simp [Sending.runFrom, Sending.step, ready, sendResultOf]
  | @ended attempt now finished final =>
      intro sending own ready
      refine ⟨[(false, .start), (false, .complete (exportOutcomeOf (env.outcome attempt)))], ?_⟩
      rcases final with sent | ⟨error, failed, stops⟩
      · simp [Sending.runFrom, Sending.step, ready, sent, exportOutcomeOf, sendResult, sendResultOf]
      · cases retryable : retryDelay error with
        | none =>
            simp [Sending.runFrom, Sending.step, ready, failed, retryable, exportOutcomeOf,
              sendResult, sendResultOf]
        | some wait =>
            have last : attempts retryMax ≤ sending.attempt + 1 := by
              rw [own]
              exact stops.resolve_right (by simp [retryable])
            simp [Sending.runFrom, Sending.step, ready, failed, retryable, exportOutcomeOf,
              sendResult, sendResultOf, last]
  | @retried attempt now wait error rest finished failed retryable more later ih =>
      intro sending own ready
      obtain ⟨steps, reached⟩ := ih
        { attempt := attempt + 1, delay := min (sending.delay * 2) 30000, stage := .ready } rfl rfl
      refine ⟨(false, .start) :: (false, .complete (exportOutcomeOf (env.outcome attempt))) ::
        (false, .wake) :: steps, ?_⟩
      have goesOn : ¬attempts retryMax ≤ attempt + 1 := by omega
      simpa [Sending.runFrom, Sending.step, ready, failed, retryable, exportOutcomeOf, goesOn, own]
        using reached

end OtelLogger
