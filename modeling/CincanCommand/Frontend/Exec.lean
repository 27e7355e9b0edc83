import CincanCommand.Frontend.Stream

namespace CincanCommand.Frontend

-- `ToolStream`. `md5` holds the bytes fed to `hashlib.md5()`, all its digest depends on, and
-- `written` what `stream.write` was given.
structure ToolStream where
  dataLength : Nat
  md5 : Bytes
  raw : Bytes
  written : Bytes
deriving DecidableEq, Repr

def ToolStream.new : ToolStream := ⟨0, [], [], []⟩

def ToolStream.update (s : ToolStream) (data : Bytes) : ToolStream :=
  { s with dataLength := s.dataLength + data.length, md5 := s.md5 ++ data }

-- `std_s.update(s_data)`, then `std_s.raw.extend(s_data)` or `std_s.stream.write(s_data)`.
def ToolStream.collect (bufferOutput : Bool) (data : Bytes) (s : ToolStream) : ToolStream :=
  if bufferOutput then { s.update data with raw := s.raw ++ data }
  else { s.update data with written := s.written ++ data }

-- `sys.stdin` when `read_stdin` holds: the bytes still to read, whether it is still among
-- `active_streams`, and `stdin_s`.
structure StdinSide where
  stdin : Source
  active : Bool
  stream : ToolStream

-- The loop's state. `sent` is what `c_socket_sock.send` accepted, in order, over `sends` calls.
structure ExecState where
  cSocket : Source
  cSocketOpen : Bool
  stdin : Option StdinSide
  stdoutS : Option ToolStream
  stderrS : ToolStream
  sent : Bytes
  sends : Nat
  shutdowns : Nat

-- `c_socket_sock.send(buf)` accepts between 1 and `len(buf)` bytes, as many as the socket takes
-- after the sends before it. Every sequence of partial sends is one of these.
structure Sender where
  accept : Nat → Nat → Nat
  accept_pos : ∀ i n, 0 < n → 0 < accept i n
  accept_le : ∀ i n, accept i n ≤ n

-- `while out_off < len(s_data): out_off += c_socket_sock.send(s_data[out_off:])`
def Sender.sendAll (snd : Sender) (sData : Bytes) (outOff : Nat) (st : ExecState) : ExecState :=
  if _h : outOff < sData.length then
    snd.sendAll sData (outOff + snd.accept st.sends (sData.drop outOff).length)
      { st with
        sent := st.sent ++ (sData.drop outOff).take (snd.accept st.sends (sData.drop outOff).length)
        sends := st.sends + 1 }
  else st
termination_by sData.length - outOff
decreasing_by
  have := snd.accept_pos st.sends (sData.drop outOff).length (by simpa using Nat.sub_pos_of_lt _h)
  omega

def bufferSize : Nat := 1024 * 1024

-- The `sel == sys.stdin` branch.
def stdinBranch (snd : Sender) (side : StdinSide) (st : ExecState) : ExecState :=
  match side.stdin.read bufferSize with
  | ([], stdin) =>
    { st with stdin := some { side with stdin, active := false }, shutdowns := st.shutdowns + 1 }
  | (sData, stdin) =>
    snd.sendAll sData 0
      { st with stdin := some { side with stdin, stream := side.stream.update sData } }

inductive ExecError
  | exception (msg : String)
  | unsupportedOperation
deriving DecidableEq, Repr

-- The `sel == c_socket_sock` branch after `__unpack_container_stream` returned.
def deliver (bufferOutput : Bool) (sType : Nat) (sData : Bytes) (st : ExecState) : ExecState :=
  if sData = [] then { st with cSocketOpen := false }
  else if sType = 1 then { st with stdoutS := st.stdoutS.map (·.collect bufferOutput sData) }
  else if sType = 2 then { st with stderrS := st.stderrS.collect bufferOutput sData }
  else st

-- The `sel == c_socket_sock` branch.
def socketBranch (bufferOutput : Bool) (st : ExecState) : Except ExecError ExecState :=
  match unpackContainerStream st.cSocket with
  | (.error msg, _) => .error (.exception msg)
  | (.ok (sType, sData), cSocket) => .ok (deliver bufferOutput sType sData { st with cSocket })

-- What one `select.select(active_streams, [], [])` did: which of the socket and stdin it
-- returned as readable, or that it raised `io.UnsupportedOperation`.
inductive Selected
  | ready (cSocket stdin : Bool)
  | unsupported

-- The stdin part of `for sel in select_in`, reached when the socket part did not raise.
def stdinTurn (snd : Sender) (stdinReady : Bool) (st : ExecState) : ExecState :=
  match st.stdin with
  | some side => if stdinReady && side.active then stdinBranch snd side st else st
  | none => st

-- One turn of `while c_socket_open`. `select` keeps the order of `active_streams`, so the
-- socket is served before stdin.
def iteration (bufferOutput : Bool) (snd : Sender) (st : ExecState) :
    Selected → Except ExecError ExecState
  | .unsupported =>
    match st.stdin with
    | some side =>
      if side.active then .ok { st with stdin := some { side with active := false } }
      else .error .unsupportedOperation
    | none => .error .unsupportedOperation
  | .ready sockReady stdinReady =>
    (if sockReady then socketBranch bufferOutput st else .ok st).map (stdinTurn snd stdinReady)

-- `while c_socket_open`, with `select` returning each of `sels` in turn.
def execLoop (bufferOutput : Bool) (snd : Sender) :
    List Selected → ExecState → Except ExecError ExecState
  | [], st => .ok st
  | sel :: sels, st =>
    if st.cSocketOpen then (iteration bufferOutput snd st sel).bind (execLoop bufferOutput snd sels)
    else .ok st

-- The state the loop starts from; `stdin` is `some` exactly when `read_stdin`.
def ExecState.init (cSocket : Source) (stdin : Option Source) (writeStdout : Bool) : ExecState :=
  { cSocket, cSocketOpen := true, stdin := stdin.map fun s => ⟨s, true, .new⟩
    stdoutS := if writeStdout then some .new else none, stderrS := .new
    sent := [], sends := 0, shutdowns := 0 }

-- `if s and s.data_length: log.<files>.append(FileLog(pathlib.Path(path), s.md5.hexdigest()))`
def streamRecord (md5 : Bytes → BitVec 128) (path : Path) : Option ToolStream → List FileLog
  | some s => if s.dataLength = 0 then [] else [⟨path, hexdigest (md5 s.md5)⟩]
  | none => []

-- From `log.exit_code = inspect.get('ExitCode', 0)` to the end of `__container_exec`.
def collectLog (md5 : Bytes → BitVec 128) (bufferOutput : Bool) (log : CommandLog)
    (exitCode : Int) (st : ExecState) : CommandLog :=
  let log := { log with exitCode }
  let log := if bufferOutput then
      { log with
        stdin := ((st.stdin.map (·.stream.raw)).getD [])
        stdout := (st.stdoutS.map (·.raw)).getD []
        stderr := st.stderrS.raw }
    else log
  if exitCode = 0 then
    { log with
      inFiles := log.inFiles ++ streamRecord md5 "/dev/stdin" (st.stdin.map (·.stream))
      outFiles := log.outFiles ++ streamRecord md5 "/dev/stdout" st.stdoutS ++
        streamRecord md5 "/dev/stderr" (some st.stderrS) }
  else log

-- `ToolImage.__container_exec` once the exec has started: `sels` are what `select` returned,
-- `exitCode` what `exec_inspect` reports. `none` while the loop has not ended after `sels`.
def containerExec (md5 : Bytes → BitVec 128) (bufferOutput : Bool) (snd : Sender) (name : String)
    (cmdArgs cmd : List String) (cSocket : Source) (stdin : Option Source) (writeStdout : Bool)
    (sels : List Selected) (exitCode : Int) : Option (Except ExecError CommandLog) :=
  let userCmd := if cmdArgs = [] then cmd else cmdArgs
  match execLoop bufferOutput snd sels (ExecState.init cSocket stdin writeStdout) with
  | .error e => some (.error e)
  | .ok st =>
    if st.cSocketOpen then none
    else some (.ok (collectLog md5 bufferOutput (CommandLog.new ([name] ++ userCmd)) exitCode st))

section Spec

variable {bufferOutput : Bool} {snd : Sender} {st st' : ExecState}

-- The inner send loop hands the socket exactly `s_data[out_off:]` within one send per byte,
-- and changes nothing else.
theorem Sender.sendAll_eq (snd : Sender) (sData : Bytes) (outOff : Nat) (st : ExecState) :
    ∃ n ≤ sData.length - outOff,
      snd.sendAll sData outOff st =
        { st with sent := st.sent ++ sData.drop outOff, sends := st.sends + n } := by
  rw [sendAll]
  split
  · rename_i h
    have hk := snd.accept_pos st.sends (sData.drop outOff).length
      (by simpa using Nat.sub_pos_of_lt h)
    have hle := snd.accept_le st.sends (sData.drop outOff).length
    simp only [List.length_drop] at hk hle ⊢
    obtain ⟨n, hn, heq⟩ :=
      Sender.sendAll_eq snd sData (outOff + snd.accept st.sends (sData.length - outOff)) _
    refine ⟨n + 1, by omega, ?_⟩
    rw [heq]
    congr 1
    · rw [List.append_assoc, ← List.drop_drop, List.take_append_drop]
    · dsimp only; omega
  · exact ⟨0, Nat.zero_le _, by simp [List.drop_of_length_le (Nat.le_of_not_lt ‹_›)]⟩
termination_by sData.length - outOff
decreasing_by simp only [List.length_drop] at *; omega

@[simp] theorem deliver_stdin (sType : Nat) (sData : Bytes) (st : ExecState) :
    (deliver bufferOutput sType sData st).stdin = st.stdin := by
  unfold deliver; split_ifs <;> rfl

@[simp] theorem deliver_cSocket (sType : Nat) (sData : Bytes) (st : ExecState) :
    (deliver bufferOutput sType sData st).cSocket = st.cSocket := by
  unfold deliver; split_ifs <;> rfl

@[simp] theorem deliver_sent (sType : Nat) (sData : Bytes) (st : ExecState) :
    (deliver bufferOutput sType sData st).sent = st.sent := by
  unfold deliver; split_ifs <;> rfl

@[simp] theorem deliver_shutdowns (sType : Nat) (sData : Bytes) (st : ExecState) :
    (deliver bufferOutput sType sData st).shutdowns = st.shutdowns := by
  unfold deliver; split_ifs <;> rfl

@[simp] theorem collectLog_stdin (md5 : Bytes → BitVec 128) (log : CommandLog) (exitCode : Int)
    (st : ExecState) :
    (collectLog md5 bufferOutput log exitCode st).stdin =
      if bufferOutput then (st.stdin.map (·.stream.raw)).getD [] else log.stdin := by
  unfold collectLog; split_ifs <;> rfl

@[simp] theorem collectLog_inFiles (md5 : Bytes → BitVec 128) (log : CommandLog)
    (exitCode : Int) (st : ExecState) :
    (collectLog md5 bufferOutput log exitCode st).inFiles =
      if exitCode = 0 then log.inFiles ++ streamRecord md5 "/dev/stdin" (st.stdin.map (·.stream))
      else log.inFiles := by
  unfold collectLog; split_ifs <;> rfl

@[simp] theorem collectLog_outFiles (md5 : Bytes → BitVec 128) (log : CommandLog)
    (exitCode : Int) (st : ExecState) :
    (collectLog md5 bufferOutput log exitCode st).outFiles =
      if exitCode = 0 then
        log.outFiles ++ streamRecord md5 "/dev/stdout" st.stdoutS ++
          streamRecord md5 "/dev/stderr" (some st.stderrS)
      else log.outFiles := by
  unfold collectLog; split_ifs <;> rfl

@[simp] theorem collectLog_exitCode (md5 : Bytes → BitVec 128) (log : CommandLog)
    (exitCode : Int) (st : ExecState) :
    (collectLog md5 bufferOutput log exitCode st).exitCode = exitCode := by
  unfold collectLog; split_ifs <;> rfl

@[simp] theorem collectLog_command (md5 : Bytes → BitVec 128) (log : CommandLog)
    (exitCode : Int) (st : ExecState) :
    (collectLog md5 bufferOutput log exitCode st).command = log.command := by
  unfold collectLog; split_ifs <;> rfl

@[simp] theorem collectLog_stdout (md5 : Bytes → BitVec 128) (log : CommandLog)
    (exitCode : Int) (st : ExecState) :
    (collectLog md5 bufferOutput log exitCode st).stdout =
      if bufferOutput then (st.stdoutS.map (·.raw)).getD [] else log.stdout := by
  unfold collectLog; split_ifs <;> rfl

@[simp] theorem collectLog_stderr (md5 : Bytes → BitVec 128) (log : CommandLog)
    (exitCode : Int) (st : ExecState) :
    (collectLog md5 bufferOutput log exitCode st).stderr =
      if bufferOutput then st.stderrS.raw else log.stderr := by
  unfold collectLog; split_ifs <;> rfl

theorem path_of_mem_streamRecord {md5 : Bytes → BitVec 128} {path : Path}
    {s : Option ToolStream} {f : FileLog} (hf : f ∈ streamRecord md5 path s) : f.path = path := by
  unfold streamRecord at hf
  split at hf
  · split at hf
    · cases hf
    · simp only [List.mem_singleton] at hf; rw [hf]
  · cases hf

theorem md5_of_mem_streamRecord {md5 : Bytes → BitVec 128} {path : Path}
    {s : Option ToolStream} {f : FileLog} (hf : f ∈ streamRecord md5 path s) :
    ∃ data, f.md5 = hexdigest (md5 data) := by
  unfold streamRecord at hf
  split at hf
  · split at hf
    · cases hf
    · simp only [List.mem_singleton] at hf; exact ⟨_, by rw [hf]⟩
  · cases hf

theorem socketBranch_eq_ok (h : socketBranch bufferOutput st = .ok st') :
    ∃ sType sData cSocket, unpackContainerStream st.cSocket = (.ok (sType, sData), cSocket) ∧
      st' = deliver bufferOutput sType sData { st with cSocket } := by
  unfold socketBranch at h
  split at h
  · cases h
  · rename_i sType sData cSocket heq
    exact ⟨sType, sData, cSocket, heq, (Except.ok.inj h).symm⟩

theorem map_eq_ok {ε α β : Type} {x : Except ε α} {f : α → β} {b : β}
    (h : x.map f = .ok b) : ∃ a, x = .ok a ∧ f a = b := by
  cases x with
  | error e => cases h
  | ok a => exact ⟨a, rfl, Except.ok.inj h⟩

-- An invariant that every turn of the loop keeps holds when the loop stops.
theorem execLoop_induction (P : ExecState → Prop)
    (hstep : ∀ st sel st', P st → st.cSocketOpen = true →
      iteration bufferOutput snd st sel = .ok st' → P st')
    (sels : List Selected) (hP : P st) (h : execLoop bufferOutput snd sels st = .ok st') :
    P st' := by
  induction sels generalizing st with
  | nil => cases h; exact hP
  | cons sel sels ih =>
      unfold execLoop at h
      split at h
      · rename_i hopen
        cases hi : iteration bufferOutput snd st sel with
        | error e => rw [hi] at h; cases h
        | ok st₁ => rw [hi] at h; exact ih (hstep st sel st₁ hP hopen hi) h
      · cases h; exact hP

theorem execLoop_closed (sels : List Selected) (hst : st.cSocketOpen = false) :
    execLoop bufferOutput snd sels st = .ok st := by
  cases sels <;> simp [execLoop, hst]

-- A turn with the socket readable: the socket branch, then the stdin branch if it runs.
theorem execLoop_socket_ready (stdinReady : Bool) (sels : List Selected)
    (hst : st.cSocketOpen = true) :
    execLoop bufferOutput snd (.ready true stdinReady :: sels) st =
      ((socketBranch bufferOutput st).map (stdinTurn snd stdinReady)).bind
        (execLoop bufferOutput snd sels) := by
  simp [execLoop, hst, iteration]

-- A turn with only stdin possibly readable.
theorem execLoop_stdin_only (stdinReady : Bool) (sels : List Selected)
    (hst : st.cSocketOpen = true) :
    execLoop bufferOutput snd (.ready false stdinReady :: sels) st =
      execLoop bufferOutput snd sels (stdinTurn snd stdinReady st) := by
  simp [execLoop, hst, iteration, Except.map, Except.bind]

end Spec

section Stdin

variable {bufferOutput : Bool} {snd : Sender} {st st' : ExecState} {input : Bytes}

-- What the stdin side keeps in every state of the loop: the container was sent the bytes read
-- from stdin so far, each once and in order, and `stdin_s` counted and digested exactly them;
-- the socket's write side was shut at most once, and only with stdin exhausted and out of
-- `active_streams`.
def StdinSound (input : Bytes) (st : ExecState) : Prop :=
  ∃ side, st.stdin = some side ∧ st.sent ++ side.stdin.bytes = input ∧
    side.stream.dataLength = st.sent.length ∧ side.stream.md5 = st.sent ∧
    (st.shutdowns = 0 ∨ st.shutdowns = 1 ∧ side.stdin.bytes = [] ∧ side.active = false)

theorem stdinSound_congr (h₁ : st'.stdin = st.stdin) (h₂ : st'.sent = st.sent)
    (h₃ : st'.shutdowns = st.shutdowns) : StdinSound input st' ↔ StdinSound input st := by
  simp only [StdinSound, h₁, h₂, h₃]

theorem socketBranch_stdinSound (h : socketBranch bufferOutput st = .ok st')
    (hs : StdinSound input st) : StdinSound input st' := by
  obtain ⟨_, _, _, -, rfl⟩ := socketBranch_eq_ok h
  exact (stdinSound_congr (by simp) (by simp) (by simp)).mpr hs

theorem stdinBranch_stdinSound (side : StdinSide) (hst : st.stdin = some side)
    (hactive : side.active = true) (hs : StdinSound input st) :
    StdinSound input (stdinBranch snd side st) := by
  obtain ⟨side', hside, hsent, hlen, hmd5, hshut⟩ := hs
  simp only [hst, Option.some.injEq] at hside
  subst hside
  have h0 : st.shutdowns = 0 := by
    rcases hshut with h0 | ⟨-, -, hoff⟩
    · exact h0
    · simp [hactive] at hoff
  have h₂ := side.stdin.read_append bufferSize
  unfold stdinBranch
  split
  · rename_i stdin heq
    obtain ⟨hnil, hnil'⟩ := Source.read_eq_nil (by decide) heq
    refine ⟨_, rfl, ?_, hlen, hmd5, .inr ⟨by simp [h0], hnil', rfl⟩⟩
    simpa [hnil, hnil'] using hsent
  · rename_i sData stdin _ heq
    rw [heq] at h₂
    obtain ⟨n, -, hsend⟩ := Sender.sendAll_eq snd sData 0
      { st with stdin := some { side with stdin, stream := side.stream.update sData } }
    rw [hsend]
    refine ⟨_, rfl, ?_, ?_, ?_, .inl h0⟩ <;> dsimp only [ToolStream.update] at h₂ ⊢ <;>
      simp only [List.drop_zero, hlen, hmd5, List.length_append, List.append_assoc, h₂, hsent]

theorem iteration_stdinSound (sel : Selected) (h : iteration bufferOutput snd st sel = .ok st')
    (hs : StdinSound input st) : StdinSound input st' := by
  cases sel with
  | unsupported =>
      obtain ⟨side, hside, hsent, hlen, hmd5, hshut⟩ := hs
      simp only [iteration, hside] at h
      split at h
      · cases h
        refine ⟨_, rfl, hsent, hlen, hmd5, ?_⟩
        rcases hshut with h0 | ⟨h1, hnil, -⟩
        exacts [.inl h0, .inr ⟨h1, hnil, rfl⟩]
      · cases h
  | ready sockReady stdinReady =>
      obtain ⟨st₁, h₁, rfl⟩ := map_eq_ok h
      have hs₁ : StdinSound input st₁ := by
        split at h₁
        · exact socketBranch_stdinSound h₁ hs
        · cases h₁; exact hs
      obtain ⟨side, hside, -⟩ := id hs₁
      simp only [stdinTurn, hside]
      split
      · exact stdinBranch_stdinSound side hside (by simp_all) hs₁
      · exact hs₁

-- A turn on which `select` returns stdin while it is active reads a chunk `c` off the front of
-- stdin; it hands the socket all of `c` and counts it in `stdin_s`, or, when `c` is empty at
-- the end of stdin, shuts the write side once and drops stdin from `active_streams`.
theorem stdinTurn_active (snd : Sender) (side : StdinSide) (hst : st.stdin = some side)
    (hactive : side.active = true) :
    ∃ c rest, side.stdin.read bufferSize = (c, rest) ∧ c ++ rest.bytes = side.stdin.bytes ∧
      c.length ≤ bufferSize ∧
      if c = [] then side.stdin.bytes = [] ∧
        stdinTurn snd true st = { st with
          stdin := some { side with stdin := rest, active := false },
          shutdowns := st.shutdowns + 1 }
      else ∃ n ≤ c.length,
        stdinTurn snd true st = { st with
          stdin := some { side with stdin := rest, stream := side.stream.update c },
          sent := st.sent ++ c, sends := st.sends + n } := by
  rcases hread : side.stdin.read bufferSize with ⟨c, rest⟩
  have happ := side.stdin.read_append bufferSize
  obtain ⟨k, hk, -, hc, -⟩ := side.stdin.read_spec bufferSize
  simp only [hread] at happ hc
  refine ⟨c, rest, rfl, happ, by rw [hc, List.length_take]; omega, ?_⟩
  cases c with
  | nil =>
      rw [if_pos rfl]
      refine ⟨(Source.read_eq_nil (by decide) hread).1, ?_⟩
      simp only [stdinTurn, hst, hactive, Bool.and_self, if_true, stdinBranch, hread]
  | cons b bs =>
      rw [if_neg (List.cons_ne_nil b bs)]
      obtain ⟨n, hn, hsend⟩ := Sender.sendAll_eq snd (b :: bs) 0
        { st with
          stdin := some { side with stdin := rest, stream := side.stream.update (b :: bs) } }
      rw [hactive, List.drop_zero] at hsend
      refine ⟨n, by simpa using hn, ?_⟩
      simp only [stdinTurn, hst, hactive, Bool.and_self, if_true, stdinBranch, hread, hsend]

-- The stdin side of the select loop, under every chunking of stdin, every pattern of partial
-- sends and every order in which `select` reports the two streams: each inner send loop ends
-- having handed the socket exactly `s_data` within `len(s_data)` sends, each turn that serves
-- stdin sends the chunk it read or shuts the write side at the end of stdin, and every state
-- the loop reaches keeps `StdinSound`.
theorem stdin_sent_once_in_order (bufferOutput : Bool) (snd : Sender) :
    (∀ (sData : Bytes) (st : ExecState), ∃ n ≤ sData.length,
      snd.sendAll sData 0 st = { st with sent := st.sent ++ sData, sends := st.sends + n }) ∧
    (∀ (st : ExecState) (side : StdinSide), st.stdin = some side → side.active = true →
      ∃ c rest, side.stdin.read bufferSize = (c, rest) ∧ c ++ rest.bytes = side.stdin.bytes ∧
        c.length ≤ bufferSize ∧
        if c = [] then side.stdin.bytes = [] ∧
          stdinTurn snd true st = { st with
            stdin := some { side with stdin := rest, active := false },
            shutdowns := st.shutdowns + 1 }
        else ∃ n ≤ c.length,
          stdinTurn snd true st = { st with
            stdin := some { side with stdin := rest, stream := side.stream.update c },
            sent := st.sent ++ c, sends := st.sends + n }) ∧
    ∀ (cSocket stdin : Source) (writeStdout : Bool) (sels : List Selected) (st : ExecState),
      execLoop bufferOutput snd sels (ExecState.init cSocket (some stdin) writeStdout) = .ok st →
      StdinSound stdin.bytes st := by
  refine ⟨fun sData st => by simpa using Sender.sendAll_eq snd sData 0 st,
    fun st side hst hactive => stdinTurn_active snd side hst hactive, ?_⟩
  intro cSocket stdin writeStdout sels st h
  refine execLoop_induction (StdinSound stdin.bytes)
    (fun _ sel _ hs _ hi => iteration_stdinSound sel hi hs) sels ?_ h
  exact ⟨_, rfl, rfl, rfl, rfl, .inl rfl⟩

end Stdin

section Output

variable {bufferOutput writeStdout : Bool} {snd : Sender} {st st' : ExecState}
  {frames : List (Nat × Bytes)}

-- The payloads of the frames of type `t`, in order.
def payloadsOf (t : Nat) (frames : List (Nat × Bytes)) : Bytes :=
  (frames.filter fun f => f.1 == t).flatMap (·.2)

@[simp] theorem payloadsOf_nil (t : Nat) : payloadsOf t [] = [] := rfl

@[simp] theorem payloadsOf_append (t : Nat) (xs ys : List (Nat × Bytes)) :
    payloadsOf t (xs ++ ys) = payloadsOf t xs ++ payloadsOf t ys := by
  simp [payloadsOf, List.filter_append]

@[simp] theorem payloadsOf_singleton (t : Nat) (f : Nat × Bytes) :
    payloadsOf t [f] = if f.1 = t then f.2 else [] := by
  by_cases h : f.1 = t <;> simp [payloadsOf, List.filter_cons, h]

-- A `ToolStream` that has collected exactly `data`.
def ToolStream.carrying (bufferOutput : Bool) (data : Bytes) : ToolStream :=
  if bufferOutput then ⟨data.length, data, data, []⟩ else ⟨data.length, data, [], data⟩

@[simp] theorem ToolStream.carrying_nil : ToolStream.carrying bufferOutput [] = .new := by
  cases bufferOutput <;> rfl

@[simp] theorem ToolStream.raw_carrying (data : Bytes) :
    (ToolStream.carrying bufferOutput data).raw = if bufferOutput then data else [] := by
  cases bufferOutput <;> rfl

@[simp] theorem ToolStream.written_carrying (data : Bytes) :
    (ToolStream.carrying bufferOutput data).written = if bufferOutput then [] else data := by
  cases bufferOutput <;> rfl

@[simp] theorem ToolStream.collect_carrying (data sData : Bytes) :
    (ToolStream.carrying bufferOutput data).collect bufferOutput sData =
      .carrying bufferOutput (data ++ sData) := by
  cases bufferOutput <;> simp [carrying, collect, update]

theorem stdinBranch_frame (snd : Sender) (side : StdinSide) (st : ExecState) :
    ∃ stdin sent sends shutdowns,
      stdinBranch snd side st = { st with stdin, sent, sends, shutdowns } := by
  unfold stdinBranch
  split
  · exact ⟨_, _, _, _, rfl⟩
  · obtain ⟨n, -, h⟩ := Sender.sendAll_eq snd _ 0 _
    rw [h]
    exact ⟨_, _, _, _, rfl⟩

theorem stdinTurn_frame (snd : Sender) (stdinReady : Bool) (st : ExecState) :
    ∃ stdin sent sends shutdowns,
      stdinTurn snd stdinReady st = { st with stdin, sent, sends, shutdowns } := by
  unfold stdinTurn
  split
  · split
    · exact stdinBranch_frame snd _ _
    · exact ⟨_, _, _, _, rfl⟩
  · exact ⟨_, _, _, _, rfl⟩

-- The socket branch on a well-formed frame, however the socket cuts it into reads.
theorem socketBranch_frame (bufferOutput : Bool) (st : ExecState) (t : Nat) (sData rest : Bytes)
    (ht : t < 256) (hlen : sData.length < 2 ^ 56)
    (hsock : st.cSocket.bytes = encodeFrame (t, sData) ++ rest) :
    ∃ cSocket : Source, cSocket.bytes = rest ∧
      socketBranch bufferOutput st = .ok (deliver bufferOutput t sData { st with cSocket }) := by
  obtain ⟨h₁, h₂⟩ := unpack_frame st.cSocket t sData rest ht hlen hsock
  rcases hu : unpackContainerStream st.cSocket with ⟨r, cSocket⟩
  rw [hu] at h₁ h₂
  subst h₁
  exact ⟨cSocket, h₂, by simp only [socketBranch, hu]⟩

theorem socketBranch_end (bufferOutput : Bool) (st : ExecState) (hsock : st.cSocket.bytes = []) :
    ∃ cSocket : Source, cSocket.bytes = [] ∧
      socketBranch bufferOutput st = .ok { st with cSocket, cSocketOpen := false } := by
  obtain ⟨h₁, h₂⟩ := unpack_end st.cSocket hsock
  rcases hu : unpackContainerStream st.cSocket with ⟨r, cSocket⟩
  rw [hu] at h₁ h₂
  subst h₁
  exact ⟨cSocket, h₂, by simp only [socketBranch, hu, deliver, if_true]⟩

-- A frame that carries data goes to the stream of its type, if it has one.
theorem deliver_of_ne_nil {sType : Nat} {sData : Bytes} (hne : sData ≠ []) :
    deliver bufferOutput sType sData st =
      { st with
        stdoutS := if sType = 1 then st.stdoutS.map (·.collect bufferOutput sData) else st.stdoutS
        stderrS := if sType = 2 then st.stderrS.collect bufferOutput sData else st.stderrS } := by
  by_cases h1 : sType = 1
  · simp [deliver, hne, h1]
  · by_cases h2 : sType = 2 <;> simp [deliver, hne, h1, h2]

-- What may follow the container's data frames: the end of the stream, or a frame with no
-- payload, which the loop takes for the end as well.
def StreamEnd (tail : Bytes) : Prop :=
  tail = [] ∨ ∃ t rest, t < 256 ∧ tail = encodeFrame (t, []) ++ rest

-- Any well-formed frames followed by the end are the data frames before the first empty
-- payload, followed by the end.
theorem streamEnd_takeWhile {frames : List (Nat × Bytes)} {tail : Bytes}
    (hframes : ∀ f ∈ frames, f.1 < 256 ∧ f.2.length < 2 ^ 56) (htail : StreamEnd tail) :
    (∀ f ∈ frames.takeWhile (·.2 ≠ []), f.1 < 256 ∧ f.2.length < 2 ^ 56 ∧ f.2 ≠ []) ∧
      ∃ tail', StreamEnd tail' ∧
        frames.flatMap encodeFrame ++ tail =
          (frames.takeWhile (·.2 ≠ [])).flatMap encodeFrame ++ tail' := by
  induction frames with
  | nil => exact ⟨by simp, tail, htail, rfl⟩
  | cons f frames ih =>
      obtain ⟨t, data⟩ := f
      obtain ⟨hf, hrest⟩ := List.forall_mem_cons.mp hframes
      cases data with
      | nil =>
          refine ⟨by simp, _, .inr ⟨t, frames.flatMap encodeFrame ++ tail, hf.1, rfl⟩, ?_⟩
          simp
      | cons b bs =>
          obtain ⟨ih₁, tail', htail', heq⟩ := ih hrest
          rw [List.takeWhile_cons_of_pos (by simp)]
          refine ⟨List.forall_mem_cons.mpr ⟨⟨hf.1, hf.2, List.cons_ne_nil _ _⟩, ih₁⟩, tail',
            htail', ?_⟩
          simp [heq]

-- What the socket side keeps while the container sends `frames` and then `tail`: the frames
-- `done` were delivered, an open socket holds the rest and the tail, a closed one was read to
-- the end of the frames, and each stream collected exactly its payloads.
def OutputSound (bufferOutput writeStdout : Bool) (frames : List (Nat × Bytes)) (tail : Bytes)
    (st : ExecState) : Prop :=
  ∃ done rest, frames = done ++ rest ∧
    (st.cSocketOpen = true → st.cSocket.bytes = rest.flatMap encodeFrame ++ tail) ∧
    (st.cSocketOpen = false → rest = []) ∧
    st.stdoutS =
      (if writeStdout then some (.carrying bufferOutput (payloadsOf 1 done)) else none) ∧
    st.stderrS = .carrying bufferOutput (payloadsOf 2 done)

theorem deliver_nil (sType : Nat) (st : ExecState) :
    deliver bufferOutput sType [] st = { st with cSocketOpen := false } := by
  simp [deliver]

-- With the frames read, the socket branch reads the end of the stream and closes.
theorem socketBranch_streamEnd (bufferOutput : Bool) {tail : Bytes} (htail : StreamEnd tail)
    (hsock : st.cSocket.bytes = tail) :
    ∃ cSocket : Source,
      socketBranch bufferOutput st = .ok { st with cSocket, cSocketOpen := false } := by
  rcases htail with rfl | ⟨t, rest, ht, rfl⟩
  · obtain ⟨cSocket, -, hb⟩ := socketBranch_end bufferOutput _ hsock
    exact ⟨cSocket, hb⟩
  · obtain ⟨cSocket, -, hb⟩ :=
      socketBranch_frame bufferOutput _ t [] rest ht (by decide) hsock
    exact ⟨cSocket, by rw [hb, deliver_nil]⟩

theorem socketBranch_outputSound {tail : Bytes}
    (hframes : ∀ f ∈ frames, f.1 < 256 ∧ f.2.length < 2 ^ 56 ∧ f.2 ≠ []) (htail : StreamEnd tail)
    (hopen : st.cSocketOpen = true) (h : socketBranch bufferOutput st = .ok st')
    (hs : OutputSound bufferOutput writeStdout frames tail st) :
    OutputSound bufferOutput writeStdout frames tail st' := by
  obtain ⟨done, rest, rfl, hsock, -, hout, herr⟩ := hs
  cases rest with
  | nil =>
      obtain ⟨cSocket, hb⟩ := socketBranch_streamEnd bufferOutput htail (by simpa using hsock hopen)
      rw [hb] at h
      cases h
      exact ⟨done, [], rfl, (fun h => by cases h), fun _ => rfl, hout, herr⟩
  | cons f rest =>
      obtain ⟨ht, hlen, hne⟩ := hframes f (by simp)
      obtain ⟨cSocket, hbytes, hb⟩ := socketBranch_frame bufferOutput _ f.1 f.2
        (rest.flatMap encodeFrame ++ tail) ht hlen (by simpa using hsock hopen)
      rw [hb] at h
      cases h
      rw [deliver_of_ne_nil hne]
      refine ⟨done ++ [f], rest, by simp, fun _ => hbytes, fun h => by simp [hopen] at h, ?_,
        ?_⟩ <;> dsimp only
      · rw [hout]
        by_cases h1 : f.1 = 1 <;> cases writeStdout <;> simp [h1]
      · rw [herr]
        by_cases h2 : f.1 = 2 <;> simp [h2]

theorem iteration_outputSound {tail : Bytes}
    (hframes : ∀ f ∈ frames, f.1 < 256 ∧ f.2.length < 2 ^ 56 ∧ f.2 ≠ []) (htail : StreamEnd tail)
    (sel : Selected) (hopen : st.cSocketOpen = true)
    (h : iteration bufferOutput snd st sel = .ok st')
    (hs : OutputSound bufferOutput writeStdout frames tail st) :
    OutputSound bufferOutput writeStdout frames tail st' := by
  cases sel with
  | unsupported =>
      simp only [iteration] at h
      split at h
      · split at h
        · cases h; exact hs
        · cases h
      · cases h
  | ready sockReady stdinReady =>
      obtain ⟨st₁, h₁, rfl⟩ := map_eq_ok h
      have hs₁ : OutputSound bufferOutput writeStdout frames tail st₁ := by
        split at h₁
        · exact socketBranch_outputSound hframes htail hopen h₁ hs
        · cases h₁; exact hs
      obtain ⟨_, _, _, _, heq⟩ := stdinTurn_frame snd stdinReady st₁
      rw [heq]
      exact hs₁

-- When the container sends data frames and then ends its stream, or sends an empty frame, the
-- loop that has run to its end wrote to each stream exactly the payloads of the data frames, in
-- order, and counted and digested them.
theorem execLoop_outputs {tail : Bytes}
    (hframes : ∀ f ∈ frames, f.1 < 256 ∧ f.2.length < 2 ^ 56 ∧ f.2 ≠ []) (htail : StreamEnd tail)
    (cSocket : Source) (hsock : cSocket.bytes = frames.flatMap encodeFrame ++ tail)
    (stdin : Option Source) (sels : List Selected)
    (h : execLoop bufferOutput snd sels (ExecState.init cSocket stdin writeStdout) = .ok st)
    (hend : st.cSocketOpen = false) :
    st.stdoutS =
        (if writeStdout then some (.carrying bufferOutput (payloadsOf 1 frames)) else none) ∧
      st.stderrS = .carrying bufferOutput (payloadsOf 2 frames) := by
  obtain ⟨done, rest, rfl, -, hrest, hout, herr⟩ :=
    execLoop_induction (OutputSound bufferOutput writeStdout frames tail)
      (fun _ sel _ hs hopen hi => iteration_outputSound hframes htail sel hopen hi hs) sels
      ⟨[], frames, rfl, fun _ => hsock, by simp [ExecState.init], by simp [ExecState.init],
        by simp [ExecState.init]⟩ h
  obtain rfl := hrest hend
  simpa using ⟨hout, herr⟩

@[simp] theorem streamRecord_none (md5 : Bytes → BitVec 128) (path : Path) :
    streamRecord md5 path none = [] := rfl

theorem streamRecord_carrying (md5 : Bytes → BitVec 128) (path : Path) (data : Bytes) :
    streamRecord md5 path (some (.carrying bufferOutput data)) =
      if data = [] then [] else [⟨path, hexdigest (md5 data)⟩] := by
  cases bufferOutput <;> simp [streamRecord, ToolStream.carrying]

-- A stdout frame with no payload, then one holding `A`.
def emptyFrameFirst : Source := ⟨[encodeFrame (1, []) ++ encodeFrame (1, [65])], by decide⟩

-- A socket whose every send takes the whole buffer.
def wholeSends : Sender := ⟨fun _ n => n, fun _ _ h => h, fun _ _ => le_rfl⟩

theorem empty_frame_ends_output :
    payloadsOf 1 [(1, []), (1, [65])] = [65] ∧
      ∃ log, containerExec (fun _ => 0) true wholeSends "cat" [] [] emptyFrameFirst none true
          [.ready true false] 0 = some (.ok log) ∧ log.stdout = [] ∧ log.outFiles = [] := by
  obtain ⟨cSocket, -, hb⟩ := socketBranch_frame true (ExecState.init emptyFrameFirst none true)
    1 [] (encodeFrame (1, [65])) (by decide) (by decide)
    (by simp [emptyFrameFirst, Source.bytes, ExecState.init])
  refine ⟨by decide, ?_⟩
  simp [ExecState.init, ToolStream.new] at hb
  simp [containerExec, execLoop, iteration, ExecState.init, hb, deliver, stdinTurn, Except.map,
    collectLog, streamRecord, ToolStream.new, Except.bind, CommandLog.new]

end Output

end CincanCommand.Frontend
