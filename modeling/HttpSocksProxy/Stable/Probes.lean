import Mathlib.Algebra.Order.Field.Rat
import HttpSocksProxy.Foundation.ByteStream
import HttpSocksProxy.Http.Text
import HttpSocksProxy.Stable.Health

/-! The loopback probes of the three listeners against connections that may
fail at every await, and the health monitor that makes them. -/
namespace HttpSocksProxy.Probes
open ByteStream Transition Health

/-- What a probe may meet: `asyncio.TimeoutError`, or another `Exception` of
this class. A cancellation is neither, and passes through every clause. -/
inductive Fault where
  | timeout
  | other (className : Str)
  deriving DecidableEq, Repr

def Fault.shown : Fault → Str
  | timeout => "timeout".toList
  | other className => className

/-- What `StreamReader` raises. -/
def Fault.ofFailure : Failure Fault → Fault
  | .incomplete _ => other "IncompleteReadError".toList
  | .overrun => other "LimitOverrunError".toList
  | .raised f => f

/-- A probed connection: how each call on it ends, and what can be read. -/
structure Peer where
  connect : Except Fault Unit
  write : Except Fault Unit
  drain : Except Fault Unit
  reader : Reader Fault
  close : Except Fault Unit
  waitClosed : Except Fault Unit
  clock : Nat → ℚ

structure Config extends Health.Config where
  httpMaxHeaderBytes : Nat := 65536
  healthProbeTimeout : ℚ := 2
  diagnosticsEnabled : Bool := true
  externalHealthInterval : ℚ := 60

/-- The `finally` block of a probe. -/
def Peer.closing (p : Peer) (body : Except Fault Probe) : Except Fault Probe := do
  p.close
  try p.waitClosed catch _ => pure ()
  body

/-- One byte inside a `repr` of bytes. -/
def reprByte (quote b : UInt8) : Http.Text :=
  if b < 127 then Http.reprChar quote b else Http.latin "\\x" ++ [Http.hexDigit (b / 16), Http.hexDigit (b % 16)]

/-- `repr` of bytes. -/
def reprBytes (bytes : List UInt8) : Http.Text :=
  let quote : UInt8 := if 39 ∈ bytes ∧ 34 ∉ bytes then 34 else 39
  98 :: quote :: bytes.flatMap (reprByte quote) ++ [quote]

/-- `_check_socks_detail` -/
def checkSocksDetail (p : Peer) : Except Fault Probe :=
  match p.connect with
  | .error f => .ok ⟨false, "connect ".toList ++ f.shown⟩
  | .ok () => p.closing do
    p.write
    p.drain
    match p.reader.readexactly 2 with
    | .error f => return ⟨false, "handshake ".toList ++ (Fault.ofFailure f).shown⟩
    | .ok (reply, _) =>
      if reply ≠ [5, 0] then
        return ⟨false, "unexpected handshake reply ".toList ++ Http.str (reprBytes reply)⟩
      else return ⟨true, "ok".toList⟩

/-- `_check_tcp_detail` -/
def checkTcpDetail (p : Peer) : Except Fault Probe :=
  match p.connect with
  | .error f => .ok ⟨false, "connect ".toList ++ f.shown⟩
  | .ok () => p.closing (.ok ⟨true, "ok".toList⟩)

/-- `part in bytes` -/
def holds (bytes part : List UInt8) : Bool := bytes.tails.any part.isPrefixOf

/-- `bytes.lower()` -/
def lowerAscii (bytes : List UInt8) : List UInt8 := bytes.map fun b => if 65 ≤ b ∧ b ≤ 90 then b + 32 else b

/-- The loop of `_check_wpad_detail`: the header, or the reason it returns. The
clock is read once in each pass. -/
def readHeader (deadline : ℚ) (maxHeader : Nat) (clock : Nat → ℚ) (pass : Nat) (response : List UInt8)
    (reader : Reader Fault) : Except Fault (Except Str (List UInt8)) :=
  if holds response [13, 10, 13, 10] then .ok (.ok response)
  else if deadline - clock pass ≤ 0 then .error .timeout
  else match reader.read (min 1024 (maxHeader + 1 - response.length)) with
    | .error f => .error (Fault.ofFailure f)
    | .ok ([], _) => .ok (.error "incomplete response header".toList)
    | .ok (b :: more, later) =>
      if maxHeader < (response ++ b :: more).length then .ok (.error "response header too large".toList)
      else readHeader deadline maxHeader clock (pass + 1) (response ++ b :: more) later
termination_by maxHeader + 1 - response.length
decreasing_by
  simp only [List.length_append, List.length_cons] at *
  omega

/-- `_check_wpad_detail` -/
def checkWpadDetail (config : Config) (p : Peer) : Except Fault Probe :=
  match p.connect with
  | .error f => .ok ⟨false, "connect ".toList ++ f.shown⟩
  | .ok () => p.closing do
    p.write
    p.drain
    match readHeader (p.clock 0 + config.healthProbeTimeout) (min 8192 config.httpMaxHeaderBytes) p.clock 1 []
        p.reader with
    | .error f => return ⟨false, "response ".toList ++ f.shown⟩
    | .ok (.error detail) => return ⟨false, detail⟩
    | .ok (.ok response) =>
      if !holds response (Http.latin "200") then return ⟨false, "HTTP status not 200".toList⟩
      else if !holds (lowerAscii response) (Http.latin "proxy-autoconfig") then
        return ⟨false, "PAC content-type missing".toList⟩
      else return ⟨true, "ok".toList⟩

def probe (config : Config) : Listener → Peer → Except Fault Probe
  | .socks => checkSocksDetail
  | .http => checkTcpDetail
  | .wpad => checkWpadDetail config

/-- The calls of a probe on its connection that no `except` clause covers. -/
def uncovered (p : Peer) : Listener → List (Except Fault Unit)
  | .http => [p.close]
  | .socks | .wpad => [p.write, p.drain, p.close]

/-- Refused, or not failing where nothing is caught. -/
def contained (l : Listener) (p : Peer) : Bool := !p.connect.isOk || (uncovered p l).all Except.isOk

@[simp] theorem isOk_ok {a : A} : (Except.ok a : Except E A).isOk = true := rfl

@[simp] theorem isOk_error {e : E} : (Except.error e : Except E A).isOk = false := rfl

theorem closing_ok {p : Peer} : (∃ result, p.closing body = .ok result) ↔
    p.close.isOk = true ∧ ∃ result, body = .ok result := by
  simp only [Peer.closing]
  cases p.close with
  | error f => simp [bind, Except.bind]
  | ok done =>
    cases p.waitClosed <;> simp [bind, Except.bind, tryCatch, tryCatchThe, MonadExceptOf.tryCatch,
      Except.tryCatch, pure, Except.pure]

/-- What a probe says after it has sent its request. -/
theorem sent_ok {p : Peer} {reply : Except Fault Probe} (replied : ∃ result, reply = .ok result) :
    (∃ result, p.closing (do p.write; p.drain; reply) = .ok result) ↔
      p.write.isOk = true ∧ p.drain.isOk = true ∧ p.close.isOk = true := by
  rw [closing_ok]
  cases p.write with
  | error f => simp [bind, Except.bind]
  | ok written =>
    cases p.drain with
    | error f => simp [bind, Except.bind]
    | ok drained => simp [bind, Except.bind, replied]

theorem probe_returns_iff (config : Config) (l : Listener) (p : Peer) :
    (∃ result, probe config l p = .ok result) ↔ contained l p = true := by
  cases l with
  | socks =>
    simp only [probe, checkSocksDetail, contained, uncovered]
    cases p.connect with
    | error f => simp
    | ok connected =>
      dsimp only
      rw [sent_ok]
      · simp
      · split
        · exact ⟨_, rfl⟩
        · split <;> exact ⟨_, rfl⟩
  | http =>
    simp only [probe, checkTcpDetail, contained, uncovered]
    cases p.connect with
    | error f => simp
    | ok connected =>
      dsimp only
      rw [closing_ok]
      simp
  | wpad =>
    simp only [probe, checkWpadDetail, contained, uncovered]
    cases p.connect with
    | error f => simp
    | ok connected =>
      dsimp only
      rw [sent_ok]
      · simp
      · split
        · exact ⟨_, rfl⟩
        · exact ⟨_, rfl⟩
        · split
          · exact ⟨_, rfl⟩
          · split <;> exact ⟨_, rfl⟩

/-- Three probes at once, and the one whose exception would come first. -/
structure Attempt where
  peer : Listener → Peer
  first : Listener

/-- `_listener_health_detailed` -/
def listenerHealthDetailed (config : Config) (a : Attempt) : Except Fault Detailed := do
  -- `gather` raises what the first probe to fail raises
  let _ ← probe config a.first (a.peer a.first)
  let socks ← probe config .socks (a.peer .socks)
  let http ← probe config .http (a.peer .http)
  let wpad ← probe config .wpad (a.peer .wpad)
  return fun
    | .socks => socks
    | .http => http
    | .wpad => wpad

def confirmAttempts (config : Config) (attempts : Nat → Attempt) (attempt : Nat) :
    Nat → Except Fault Detailed
  | 0 => listenerHealthDetailed config (attempts attempt)
  | later + 1 => do
    let last ← listenerHealthDetailed config (attempts attempt)
    if allOkay last then return last else confirmAttempts config attempts (attempt + 1) later

/-- `_confirm_listener_health` -/
def confirmListenerHealth (config : Config) (attempts : Nat → Attempt) : Except Fault Detailed :=
  confirmAttempts config attempts 0 (config.attempts - 1)

/-- What one pass of the loop of `_health_monitor` meets. `saturated` is the
condition of the SOCKS override, `diagnosed` how the outside checks end. -/
structure Look where
  backgrounded : Bool
  probes : Attempt
  saturated : Bool
  confirmation : Nat → Attempt
  structural : Listener → Bool
  now : ℚ
  diagnosed : Except Fault Unit

def saturationOverride (saturated : Bool) (detailed : Detailed) : Detailed :=
  if !(detailed .socks).okay && saturated then
    Function.update detailed .socks ⟨true, "connection capacity reached".toList⟩
  else detailed

def healthy (w : Watch) : Report :=
  ⟨.healthy, if w.warned then [(.info, "listener self-check returned to healthy".toList)] else [], {}⟩

/-- The listener part of a pass. -/
def examine (config : Config) (w : Watch) (r : Look) : Except Fault Report := do
  let detailed ← listenerHealthDetailed config r.probes
  let probed := saturationOverride r.saturated detailed
  if allOkay probed then return healthy w
  else
    let counted : Watch := ⟨w.failures + 1, true⟩
    let told := warning w probed
    if reached config.toConfig counted.failures then
      let confirmed ← confirmListenerHealth config r.confirmation
      let report := concluded counted (judge r.structural confirmed)
      return { report with events := told ++ report.events }
    else return ⟨.warned, told, counted⟩

/-- How `_health_monitor` stands or has ended: by `RecoveryRequired`, by
another exception, or cancelled. -/
inductive Monitor where
  | watching (w : Watch) (externalDue : ℚ)
  | recovery (reason : Str)
  | crashed (f : Fault)
  | cancelled

/-- The outside checks at the end of a pass, when they are due. -/
def diagnose (config : Config) (w : Watch) (externalDue : ℚ) (r : Look) : Monitor :=
  if config.diagnosticsEnabled && externalDue ≤ r.now then
    match r.diagnosed with
    | .error f => .crashed f
    | .ok () => .watching w (r.now + config.externalHealthInterval)
  else .watching w externalDue

def look (config : Config) (w : Watch) (externalDue : ℚ) (r : Look) : Monitor :=
  if paused config.toConfig r.backgrounded then .watching {} externalDue
  else match examine config w r with
    | .error f => .crashed f
    | .ok report =>
      match report.outcome with
      | .recovery reason => .recovery reason
      | _ => diagnose config report.next externalDue r

inductive Event where
  | look (r : Look)
  | cancel

def step (config : Config) : Monitor → Event → Option Monitor
  | .watching w externalDue, .look r => some (look config w externalDue r)
  | .watching _ _, .cancel => some .cancelled
  | _, _ => none

/-- Nothing that a pass may meet fails where nothing is caught. -/
def Untroubled (config : Config) : Event → Prop
  | .look r => (∀ l, contained l (r.probes.peer l) = true) ∧
      (∀ k < config.attempts, ∀ l, contained l ((r.confirmation k).peer l) = true) ∧ r.diagnosed.isOk = true
  | .cancel => True

/-- `RecoveryRequired` with this reason, raised for what the confirmation found. -/
def Confirmed (config : Config) (reason : Str) : Event → Prop
  | .look r => ∃ confirmed, confirmListenerHealth config r.confirmation = .ok confirmed ∧
      judge r.structural confirmed = .recovery reason
  | .cancel => False

theorem listenerHealthDetailed_ok (config : Config) {a : Attempt}
    (fine : ∀ l, contained l (a.peer l) = true) :
    ∃ detailed, listenerHealthDetailed config a = .ok detailed := by
  have returns (l : Listener) := (probe_returns_iff config l (a.peer l)).mpr (fine l)
  obtain ⟨first, returned⟩ := returns a.first
  obtain ⟨socks, socks_returned⟩ := returns .socks
  obtain ⟨http, http_returned⟩ := returns .http
  obtain ⟨wpad, wpad_returned⟩ := returns .wpad
  simp only [listenerHealthDetailed, returned, socks_returned, http_returned, wpad_returned, bind, Except.bind]
  exact ⟨_, rfl⟩

/-- What the probes of an attempt find if none of them raises. -/
def foundBy (config : Config) (a : Attempt) : Detailed :=
  match listenerHealthDetailed config a with
  | .ok detailed => detailed
  | .error _ => fun _ => ⟨false, []⟩

theorem listenerHealthDetailed_found (config : Config) {a : Attempt}
    (fine : ∀ l, contained l (a.peer l) = true) :
    listenerHealthDetailed config a = .ok (foundBy config a) := by
  obtain ⟨detailed, returned⟩ := listenerHealthDetailed_ok config fine
  rw [foundBy, returned]

theorem confirmAttempts_found (config : Config) {attempts : Nat → Attempt}
    (fine : ∀ k ≤ attempt + later, ∀ l, contained l ((attempts k).peer l) = true) :
    confirmAttempts config attempts attempt later =
      .ok (confirmFrom (fun k => foundBy config (attempts k)) attempt later) := by
  induction later generalizing attempt with
  | zero => exact listenerHealthDetailed_found config (fine attempt le_rfl)
  | succ later ih =>
    have returned := listenerHealthDetailed_found config (fine attempt (by omega))
    simp only [confirmAttempts, confirmFrom, returned, bind, Except.bind]
    split
    · rfl
    · exact ih fun k small => fine k (by omega)

/-- The round model's view of a pass in which no probe raises. -/
def Look.round (config : Config) (r : Look) : Round :=
  ⟨r.backgrounded, saturationOverride r.saturated (foundBy config r.probes), fun k => foundBy config (r.confirmation k),
    r.structural⟩

/-- Where no probe raises, a pass concludes what the round model does. -/
theorem examine_round (w : Watch) (untroubled : Untroubled config (.look r))
    (foreground : paused config.toConfig r.backgrounded = false) :
    examine config w r = .ok (healthRound config.toConfig w (r.round config)) := by
  obtain ⟨fine, confirmable, _⟩ := untroubled
  have positive := config.attempts_pos
  have confirmed : confirmAttempts config r.confirmation 0 (config.attempts - 1) =
      .ok (confirmFrom (fun k => foundBy config (r.confirmation k)) 0 (config.attempts - 1)) :=
    confirmAttempts_found config fun k small => confirmable k (by omega)
  have probed : saturationOverride r.saturated (foundBy config r.probes) = (r.round config).probed := rfl
  have judged : confirmFrom (fun k => foundBy config (r.confirmation k)) 0 (config.attempts - 1) =
      Health.confirmListenerHealth config.toConfig (r.round config).confirmation := rfl
  simp only [examine, listenerHealthDetailed_found config fine, confirmListenerHealth, confirmed, bind, Except.bind,
    probed, judged]
  have foreground : ¬ paused config.toConfig (r.round config).backgrounded = true :=
    Bool.eq_false_iff.mp foreground
  rw [healthRound, if_neg foreground]
  dsimp only
  split
  · rfl
  · cases reached config.toConfig (w.failures + 1) <;> rfl

theorem judge_of_concluded (raised : (concluded counted verdict).outcome = .recovery reason) :
    verdict = .recovery reason := by
  cases verdict with
  | recovery r => exact congrArg Verdict.recovery (Outcome.recovery.inj raised)
  | recovered | degraded => contradiction

theorem examine_recovery (examined : examine config w r = .ok report)
    (raised : report.outcome = .recovery reason) :
    Confirmed config reason (.look r) := by
  obtain ⟨detailed, _, examined⟩ := bind_ok.mp examined
  dsimp only at examined
  split at examined
  case isTrue =>
    cases examined
    contradiction
  case isFalse =>
    split at examined
    case isTrue =>
      obtain ⟨confirmed, confirms, examined⟩ := bind_ok.mp examined
      cases examined
      exact ⟨confirmed, confirms, judge_of_concluded raised⟩
    case isFalse =>
      cases examined
      contradiction

theorem diagnose_contained (config : Config) (w : Watch) (externalDue : ℚ) (fine : r.diagnosed.isOk = true) :
    ∃ due, diagnose config w externalDue r = .watching w due := by
  simp only [diagnose]
  split
  · split
    case h_1 f failed =>
      rw [failed] at fine
      contradiction
    case h_2 => exact ⟨_, rfl⟩
  · exact ⟨_, rfl⟩

theorem look_contained (w : Watch) (externalDue : ℚ) (untroubled : Untroubled config (.look r)) :
    (∃ w' due, look config w externalDue r = .watching w' due) ∨
      ∃ reason, look config w externalDue r = .recovery reason ∧ Confirmed config reason (.look r) := by
  simp only [look]
  cases quiet : paused config.toConfig r.backgrounded with
  | true => exact .inl ⟨_, _, rfl⟩
  | false =>
    have examined := examine_round w untroubled quiet
    simp only [examined, Bool.false_eq_true, if_false]
    split
    case h_1 reason raised => exact .inr ⟨reason, rfl, examine_recovery examined raised⟩
    case h_2 => exact .inl ⟨_, diagnose_contained config _ externalDue untroubled.2.2⟩

/-- A probe returns a pair exactly when no call of it that is not covered by an
`except` clause raises; and in every run whose passes meet no such call the
monitor goes on, is cancelled, or has raised `RecoveryRequired` for what its
confirmation found. -/
theorem trouble_confirmed (config : Config)
    (run : Run (guarded (byStep (step config)) fun _ event => Untroubled config event) (.watching {} 0) past s) :
    (∀ l p, (∃ result, probe config l p = .ok result) ↔ contained l p = true) ∧
    ((∃ w due, s = .watching w due) ∨ s = .cancelled ∨
      ∃ reason event earlier, s = .recovery reason ∧ past = event :: earlier ∧ Confirmed config reason event) := by
  refine ⟨probe_returns_iff config, ?_⟩
  cases run with
  | start => exact .inl ⟨_, _, rfl⟩
  | @next earlier before event _ run moved =>
    obtain ⟨untroubled, moved⟩ := moved
    simp only [byStep, step] at moved
    split at moved
    case h_1 w due r =>
      cases moved
      rcases look_contained w due untroubled with goes_on | ⟨reason, raised, confirmed⟩
      · exact .inl goes_on
      · exact .inr (.inr ⟨reason, _, _, raised, rfl, confirmed⟩)
    case h_2 =>
      cases moved
      exact .inr (.inl rfl)
    case h_3 => contradiction

/-- A connection on which every call works, with these bytes to be read. -/
def answering (bytes : List UInt8) : Peer :=
  ⟨.ok (), .ok (), .ok (), .ofPieces [bytes], .ok (), .ok (), fun _ => 0⟩

/-- SOCKS answers, HTTP accepts, and WPAD refuses. -/
def wpadRefuses : Attempt where
  peer
    | .socks => answering [5, 0]
    | .http => answering []
    | .wpad => { answering [] with connect := .error (.other "ConnectionRefusedError".toList) }
  first := .socks

def lookAt (probes : Attempt) : Look := ⟨false, probes, false, fun _ => wpadRefuses, fun _ => true, 0, .ok ()⟩

/-- The refusal is a failed probe, and the monitor goes on. -/
theorem refusal_contained : ∃ s,
    Run (guarded (byStep (step {})) fun _ event => Untroubled {} event) (.watching {} 0)
      [.look (lookAt wpadRefuses)] s ∧ (∀ f, s ≠ .crashed f) ∧
    ∃ result, probe {} .wpad (wpadRefuses.peer .wpad) = .ok result := by
  have fine : ∀ l, contained l (wpadRefuses.peer l) = true := by
    intro l
    cases l <;> rfl
  have run : Run (guarded (byStep (step {})) fun _ event => Untroubled {} event) (.watching {} 0)
      [.look (lookAt wpadRefuses)] (look {} {} 0 (lookAt wpadRefuses)) :=
    .next .start ⟨⟨fine, fun _ _ => fine, rfl⟩, rfl⟩
  obtain ⟨returns, ends⟩ := trouble_confirmed {} run
  refine ⟨_, run, ?_, (returns .wpad _).mpr rfl⟩
  intro f crashed
  rw [crashed] at ends
  simp at ends

/-- The SOCKS listener accepts, and resets the connection before the greeting
is sent. -/
def resetPeer : Peer := { answering [] with drain := .error (.other "ConnectionResetError".toList) }

def resetLook : Look :=
  lookAt { wpadRefuses with peer := Function.update wpadRefuses.peer .socks resetPeer }

/-- The first reset ends the monitor at once. -/
theorem reset_unconfirmed :
    checkSocksDetail resetPeer = .error (.other "ConnectionResetError".toList) ∧
    Run (byStep (step {})) (.watching {} 0) [.look resetLook]
      (.crashed (.other "ConnectionResetError".toList)) :=
  ⟨rfl, .next .start rfl⟩

end HttpSocksProxy.Probes
