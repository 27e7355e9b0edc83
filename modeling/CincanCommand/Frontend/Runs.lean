import CincanCommand.Frontend.Exec

namespace CincanCommand.Frontend

section Progress

variable {bufferOutput : Bool} {snd : Sender} {st st' : ExecState}

-- Running `xs ++ ys` is running `xs`, then `ys` from where it stopped.
theorem execLoop_append (xs ys : List Selected) (st : ExecState) :
    execLoop bufferOutput snd (xs ++ ys) st =
      (execLoop bufferOutput snd xs st).bind (execLoop bufferOutput snd ys) := by
  induction xs generalizing st with
  | nil => rfl
  | cons sel xs ih =>
      cases hopen : st.cSocketOpen
      · simp only [List.cons_append, execLoop, hopen, Bool.false_eq_true, if_false,
          Except.bind, execLoop_closed _ hopen]
      · simp only [List.cons_append, execLoop, hopen, if_true]
        cases iteration bufferOutput snd st sel with
        | error e => rfl
        | ok st₁ => exact ih st₁

-- The call returns a log exactly when the loop ran to its end, and the log is the one
-- collected from the final state.
theorem containerExec_eq_ok (md5 : Bytes → BitVec 128) (name : String) (cmdArgs cmd : List String)
    (cSocket : Source) (stdin : Option Source) (writeStdout : Bool) (sels : List Selected)
    (exitCode : Int) (log : CommandLog) :
    containerExec md5 bufferOutput snd name cmdArgs cmd cSocket stdin writeStdout sels exitCode =
        some (.ok log) ↔
      ∃ st, execLoop bufferOutput snd sels (ExecState.init cSocket stdin writeStdout) = .ok st ∧
        st.cSocketOpen = false ∧
        collectLog md5 bufferOutput
          (CommandLog.new ([name] ++ if cmdArgs = [] then cmd else cmdArgs)) exitCode st = log := by
  unfold containerExec
  cases execLoop bufferOutput snd sels (ExecState.init cSocket stdin writeStdout) with
  | error e => simp
  | ok st => cases h : st.cSocketOpen <;> simp [h]

@[simp] theorem deliver_cSocketOpen {sType : Nat} {sData : Bytes} (hne : sData ≠ []) :
    (deliver bufferOutput sType sData st).cSocketOpen = st.cSocketOpen := by
  rw [deliver_of_ne_nil hne]

-- Each turn that finds the socket readable reads one frame, whatever stdin does in between.
-- With `rest` and then `tail` on the socket, the run comes to the turn that reads `tail`.
theorem execLoop_reaches_tail (turns : List (Bool × Bool)) :
    ∀ (st : ExecState) (rest : List (Nat × Bytes)) (tail : Bytes),
      (∀ f ∈ rest, f.1 < 256 ∧ f.2.length < 2 ^ 56 ∧ f.2 ≠ []) → st.cSocketOpen = true →
      st.cSocket.bytes = rest.flatMap encodeFrame ++ tail → rest.length < turns.countP (·.1) →
      ∃ (st₁ : ExecState) (stdinReady : Bool) (post : List (Bool × Bool)),
        st₁.cSocket.bytes = tail ∧
        execLoop bufferOutput snd (turns.map fun t => .ready t.1 t.2) st =
          ((socketBranch bufferOutput st₁).map (stdinTurn snd stdinReady)).bind
            (execLoop bufferOutput snd (post.map fun t => .ready t.1 t.2)) := by
  induction turns with
  | nil => intro _ _ _ _ _ _ h; simp at h
  | cons t turns ih =>
      obtain ⟨sockReady, stdinReady⟩ := t
      intro st rest tail hrest hopen hsock hlen
      cases sockReady with
      | false =>
          obtain ⟨_, _, _, _, heq⟩ := stdinTurn_frame snd stdinReady st
          rw [List.map_cons, execLoop_stdin_only stdinReady _ hopen]
          exact ih (stdinTurn snd stdinReady st) rest tail hrest (by rw [heq]; exact hopen)
            (by rw [heq]; exact hsock) (by simpa using hlen)
      | true =>
          rw [List.map_cons, execLoop_socket_ready stdinReady _ hopen]
          cases rest with
          | nil => exact ⟨st, stdinReady, turns, by simpa using hsock, rfl⟩
          | cons f rest =>
              obtain ⟨ht, hl, hne⟩ := hrest f (by simp)
              obtain ⟨cSocket, hbytes, hb⟩ :=
                socketBranch_frame bufferOutput st f.1 f.2 _ ht hl (by simpa using hsock)
              let st₁ := deliver bufferOutput f.1 f.2 { st with cSocket }
              obtain ⟨_, _, _, _, heq⟩ := stdinTurn_frame snd stdinReady st₁
              rw [hb]
              exact ih (stdinTurn snd stdinReady st₁) rest tail
                (fun g hg => hrest g (List.mem_cons_of_mem _ hg))
                (by rw [heq]; simpa [st₁, hne] using hopen) (by rw [heq]; simpa [st₁] using hbytes)
                (by simpa using hlen)

-- So a run over well-formed frames and then the end of the stream, or an empty frame, has
-- ended once `select` has found the socket readable one time more than there are frames.
theorem execLoop_ends (turns : List (Bool × Bool)) (st : ExecState) (rest : List (Nat × Bytes))
    {tail : Bytes} (hrest : ∀ f ∈ rest, f.1 < 256 ∧ f.2.length < 2 ^ 56 ∧ f.2 ≠ [])
    (htail : StreamEnd tail) (hopen : st.cSocketOpen = true)
    (hsock : st.cSocket.bytes = rest.flatMap encodeFrame ++ tail)
    (hlen : rest.length < turns.countP (·.1)) :
    ∃ st', execLoop bufferOutput snd (turns.map fun t => .ready t.1 t.2) st = .ok st' ∧
      st'.cSocketOpen = false := by
  obtain ⟨st₁, r, post, htail', hrun⟩ :=
    execLoop_reaches_tail turns st rest tail hrest hopen hsock hlen
  obtain ⟨cSocket, hb⟩ := socketBranch_streamEnd bufferOutput htail htail'
  obtain ⟨_, _, _, _, heq⟩ := stdinTurn_frame snd r { st₁ with cSocket, cSocketOpen := false }
  rw [hrun, hb]
  simp only [Except.map, Except.bind, heq]
  exact ⟨_, execLoop_closed _ rfl, rfl⟩

-- A socket that takes one byte per send.
def byteSends : Sender :=
  ⟨fun _ n => min n 1, fun _ _ h => Nat.lt_min.mpr ⟨h, Nat.one_pos⟩, fun _ _ => Nat.min_le_left ..⟩

-- One stdout frame holding `A`.
def echoFrame : Source := ⟨[encodeFrame (1, [65])], by decide⟩

theorem echoFrame_frames :
    (∀ f ∈ [((1 : Nat), ([65] : Bytes))], f.1 < 256 ∧ f.2.length < 2 ^ 56 ∧ f.2 ≠ []) ∧
      echoFrame.bytes = [((1 : Nat), ([65] : Bytes))].flatMap encodeFrame :=
  ⟨by decide, by decide⟩

-- So once `select` has found the socket readable one time more than there are frames, the call
-- has returned a log.
theorem containerExec_returns (md5 : Bytes → BitVec 128) (name : String)
    (cmdArgs cmd : List String) (frames : List (Nat × Bytes))
    (hframes : ∀ f ∈ frames, f.1 < 256 ∧ f.2.length < 2 ^ 56 ∧ f.2 ≠ [])
    (cSocket : Source) (hsock : cSocket.bytes = frames.flatMap encodeFrame) (stdin : Option Source)
    (writeStdout : Bool) (turns : List (Bool × Bool)) (hlen : frames.length < turns.countP (·.1))
    (exitCode : Int) :
    ∃ log, containerExec md5 bufferOutput snd name cmdArgs cmd cSocket stdin writeStdout
      (turns.map fun t => .ready t.1 t.2) exitCode = some (.ok log) := by
  obtain ⟨st, hrun, hend⟩ := execLoop_ends turns (ExecState.init cSocket stdin writeStdout) frames
    hframes (.inl rfl) rfl (by rw [List.append_nil]; exact hsock) hlen
  exact ⟨_, (containerExec_eq_ok md5 name cmdArgs cmd _ _ _ _ _ _).mpr ⟨st, hrun, hend, rfl⟩⟩

-- `Hi` on stdin, in one read.
def stdinHi : Source := ⟨[[72, 105]], by decide⟩

theorem containerExec_returns_echo :
    (∀ f ∈ [((1 : Nat), ([65] : Bytes))], f.1 < 256 ∧ f.2.length < 2 ^ 56 ∧ f.2 ≠ []) ∧
      echoFrame.bytes = [((1 : Nat), ([65] : Bytes))].flatMap encodeFrame ∧
      [((1 : Nat), ([65] : Bytes))].length <
        [(false, true), (true, true), (true, false)].countP (·.1) ∧
      ∃ log, containerExec (fun _ => 0) false byteSends "cat" [] [] echoFrame (some stdinHi) true
        ([(false, true), (true, true), (true, false)].map fun t => .ready t.1 t.2) 0 =
          some (.ok log) :=
  ⟨echoFrame_frames.1, echoFrame_frames.2, by decide, containerExec_returns (fun _ => 0) "cat" []
    [] _ echoFrame_frames.1 echoFrame echoFrame_frames.2 (some stdinHi) true _ (by decide) 0⟩

-- A run that echoes `A` and finds stdin readable first returns a log, whatever the buffering,
-- the pattern of sends and stdin.
theorem echoFrame_run (bufferOutput : Bool) (snd : Sender) (stdin : Option Source) :
    ∃ log, containerExec (fun _ => 0) bufferOutput snd "cat" [] [] echoFrame stdin true
      [.ready false true, .ready true true, .ready true false] 0 = some (.ok log) := by
  obtain ⟨st, hrun, hend⟩ : ∃ st, execLoop bufferOutput snd
      [.ready false true, .ready true true, .ready true false]
      (ExecState.init echoFrame stdin true) = .ok st ∧ st.cSocketOpen = false :=
    execLoop_ends [(false, true), (true, true), (true, false)] _ _ echoFrame_frames.1 (.inl rfl)
      rfl (by rw [List.append_nil]; exact echoFrame_frames.2) (by decide)
  exact ⟨_, (containerExec_eq_ok _ _ _ _ _ _ _ _ _ _).mpr ⟨st, hrun, hend, rfl⟩⟩

theorem socketBranch_raises {msg : String} (h : (unpackContainerStream st.cSocket).1 = .error msg) :
    socketBranch bufferOutput st = .error (.exception msg) := by
  unfold socketBranch
  rcases hu : unpackContainerStream st.cSocket with ⟨r, s⟩
  rw [hu] at h
  cases h
  rfl

-- A stream that breaks off inside a payload, after well-formed frames, makes the call raise
-- once `select` has found the socket readable one time more than there are whole frames: the
-- call returns no log.
theorem containerExec_raises (md5 : Bytes → BitVec 128) (name : String)
    (cmdArgs cmd : List String) (frames : List (Nat × Bytes))
    (hframes : ∀ f ∈ frames, f.1 < 256 ∧ f.2.length < 2 ^ 56 ∧ f.2 ≠ [])
    (t len : Nat) (part : Bytes) (ht : t < 256) (hlen : len < 2 ^ 56) (hpart : part.length < len)
    (cSocket : Source)
    (hsock : cSocket.bytes = frames.flatMap encodeFrame ++ (toBytesBE 8 (t * 2 ^ 56 + len) ++ part))
    (stdin : Option Source) (writeStdout : Bool) (turns : List (Bool × Bool))
    (hturns : frames.length < turns.countP (·.1)) (exitCode : Int) :
    containerExec md5 bufferOutput snd name cmdArgs cmd cSocket stdin writeStdout
        (turns.map fun t => .ready t.1 t.2) exitCode =
      some (.error (.exception "Failed to read all data from the container")) := by
  obtain ⟨st₁, r, post, htail, hrun⟩ := execLoop_reaches_tail turns
    (ExecState.init cSocket stdin writeStdout) frames _ hframes rfl hsock hturns
  have hb : socketBranch bufferOutput st₁ = .error (.exception _) :=
    socketBranch_raises (unpack_truncated_payload st₁.cSocket t len part ht hlen hpart htail)
  unfold containerExec
  rw [hrun, hb]
  rfl

-- A stdout frame holding `A`, then one byte of a two-byte stdout payload.
def cutAfterEcho : Source := ⟨[encodeFrame (1, [65]), [1, 0, 0, 0, 0, 0, 0, 2, 72]], by decide⟩

theorem containerExec_raises_cut :
    (∀ f ∈ [((1 : Nat), ([65] : Bytes))], f.1 < 256 ∧ f.2.length < 2 ^ 56 ∧ f.2 ≠ []) ∧
      1 < 256 ∧ 2 < 2 ^ 56 ∧ ([72] : Bytes).length < 2 ∧
      cutAfterEcho.bytes =
        [((1 : Nat), ([65] : Bytes))].flatMap encodeFrame ++
          (toBytesBE 8 (1 * 2 ^ 56 + 2) ++ [72]) ∧
      [((1 : Nat), ([65] : Bytes))].length < [(true, false), (true, false)].countP (·.1) ∧
      containerExec (fun _ => 0) true byteSends "cat" [] [] cutAfterEcho none true
          ([(true, false), (true, false)].map fun t => .ready t.1 t.2) 0 =
        some (.error (.exception "Failed to read all data from the container")) := by
  have hframes : ∀ f ∈ [((1 : Nat), ([65] : Bytes))],
      f.1 < 256 ∧ f.2.length < 2 ^ 56 ∧ f.2 ≠ [] := by decide
  have hsock : cutAfterEcho.bytes = [((1 : Nat), ([65] : Bytes))].flatMap encodeFrame ++
      (toBytesBE 8 (1 * 2 ^ 56 + 2) ++ [72]) := by decide
  exact ⟨hframes, by decide, by decide, by decide, hsock, by decide,
    containerExec_raises (fun _ => 0) "cat" [] [] _ hframes 1 2 [72] (by decide) (by decide)
      (by decide) cutAfterEcho hsock none true _ (by decide) 0⟩

end Progress

section Stdin

variable {bufferOutput : Bool} {snd : Sender} {st st' : ExecState} {input : Bytes}

-- Stdin is not, or no longer, among `active_streams`.
def StdinIdle (st : ExecState) : Prop := ∀ side, st.stdin = some side → side.active = false

theorem stdinTurn_idle (stdinReady : Bool) (hidle : StdinIdle st) :
    stdinTurn snd stdinReady st = st := by
  unfold stdinTurn
  split
  · rename_i side hside
    simp [hidle side hside]
  · rfl

theorem socketBranch_keeps_stdin (h : socketBranch bufferOutput st = .ok st') :
    st'.stdin = st.stdin ∧ st'.sent = st.sent ∧ st'.shutdowns = st.shutdowns := by
  obtain ⟨_, _, _, -, rfl⟩ := socketBranch_eq_ok h
  simp

-- With stdin out of `active_streams`, a turn neither sends nor shuts the socket's write side.
theorem iteration_idle (sel : Selected) (h : iteration bufferOutput snd st sel = .ok st')
    (hidle : StdinIdle st) :
    StdinIdle st' ∧ st'.sent = st.sent ∧ st'.shutdowns = st.shutdowns := by
  cases sel with
  | unsupported =>
      simp only [iteration] at h
      split at h
      · rename_i side hside
        simp [hidle side hside] at h
      · cases h
  | ready sockReady stdinReady =>
      obtain ⟨st₁, h₁, rfl⟩ := map_eq_ok h
      obtain ⟨hstdin, hsent, hshut⟩ :
          st₁.stdin = st.stdin ∧ st₁.sent = st.sent ∧ st₁.shutdowns = st.shutdowns := by
        split at h₁
        · exact socketBranch_keeps_stdin h₁
        · cases h₁; exact ⟨rfl, rfl, rfl⟩
      have hidle₁ : StdinIdle st₁ := fun side hside => hidle side (hstdin ▸ hside)
      rw [stdinTurn_idle stdinReady hidle₁]
      exact ⟨hidle₁, hsent, hshut⟩

theorem execLoop_idle (sels : List Selected) (h : execLoop bufferOutput snd sels st = .ok st')
    (hidle : StdinIdle st) : st'.sent = st.sent ∧ st'.shutdowns = st.shutdowns := by
  refine (execLoop_induction (fun s => StdinIdle s ∧ s.sent = st.sent ∧ s.shutdowns = st.shutdowns)
    (fun _ sel _ hs _ hstep => ?_) sels ⟨hidle, rfl, rfl⟩ h).2
  obtain ⟨hi, hsent, hshut⟩ := iteration_idle sel hstep hs.1
  exact ⟨hi, hsent.trans hs.2.1, hshut.trans hs.2.2⟩

theorem execLoop_stdinSound (cSocket stdin : Source) (writeStdout : Bool) (sels : List Selected)
    (h : execLoop bufferOutput snd sels (ExecState.init cSocket (some stdin) writeStdout) =
      .ok st) :
    StdinSound stdin.bytes st :=
  execLoop_induction (StdinSound stdin.bytes)
    (fun _ sel _ hs _ hi => iteration_stdinSound sel hi hs) sels
    (by exact ⟨_, rfl, rfl, rfl, rfl, .inl rfl⟩) h

-- Once the loop has shut the socket's write side, the container has been sent all of stdin,
-- and later turns send nothing more and do not shut it again.
theorem no_send_after_shutdown (cSocket stdin : Source) (writeStdout : Bool)
    (xs ys : List Selected) (st₁ st' : ExecState)
    (h₁ : execLoop bufferOutput snd xs (ExecState.init cSocket (some stdin) writeStdout) = .ok st₁)
    (hshut : st₁.shutdowns ≠ 0)
    (h : execLoop bufferOutput snd (xs ++ ys) (ExecState.init cSocket (some stdin) writeStdout) =
      .ok st') :
    st₁.sent = stdin.bytes ∧ st'.sent = st₁.sent ∧ st'.shutdowns = 1 := by
  rw [execLoop_append, h₁] at h
  obtain ⟨side, hside, hsent, -, -, hs⟩ := execLoop_stdinSound cSocket stdin writeStdout xs h₁
  obtain ⟨h1, hnil, hoff⟩ := hs.resolve_left hshut
  obtain ⟨hsent', hshut'⟩ :=
    execLoop_idle ys h fun s hs' => by rw [hside] at hs'; cases hs'; exact hoff
  exact ⟨by simpa [hnil] using hsent, hsent', hshut'.trans h1⟩

-- Nothing on stdin.
def stdinEmpty : Source := ⟨[], by decide⟩

theorem no_send_after_shutdown_empty :
    ∃ st₁ st', execLoop true byteSends [.ready false true]
        (ExecState.init echoFrame (some stdinEmpty) true) = .ok st₁ ∧ st₁.shutdowns ≠ 0 ∧
      execLoop true byteSends ([.ready false true] ++ [.ready false true])
        (ExecState.init echoFrame (some stdinEmpty) true) = .ok st' ∧
      (st₁.sent = stdinEmpty.bytes ∧ st'.sent = st₁.sent ∧ st'.shutdowns = 1) :=
  ⟨_, _, rfl, by decide, rfl, @no_send_after_shutdown true byteSends echoFrame stdinEmpty true
    [.ready false true] [.ready false true] _ _ rfl (by decide) rfl⟩

theorem execLoop_stdin_turns (bufferOutput : Bool) (snd : Sender) (k : Nat) (stdinReady : Bool)
    (st : ExecState) :
    ∃ st', execLoop bufferOutput snd (List.replicate k (.ready false stdinReady)) st = .ok st' := by
  induction k generalizing st with
  | zero => exact ⟨st, rfl⟩
  | succ k ih =>
      cases hopen : st.cSocketOpen
      · exact ⟨st, execLoop_closed _ hopen⟩
      · rw [List.replicate_succ, execLoop_stdin_only stdinReady _ hopen]
        exact ih _

-- Turns that find only stdin readable leave the socket's read side as it was.
theorem execLoop_stdin_turns_socket (k : Nat) (stdinReady : Bool) :
    ∀ st st', st.cSocketOpen = true →
      execLoop bufferOutput snd (List.replicate k (.ready false stdinReady)) st = .ok st' →
      st'.cSocket = st.cSocket ∧ st'.cSocketOpen = true := by
  induction k with
  | zero => rintro st st' hopen ⟨⟩; exact ⟨rfl, hopen⟩
  | succ k ih =>
      intro st st' hopen h
      rw [List.replicate_succ, execLoop_stdin_only stdinReady _ hopen] at h
      obtain ⟨_, _, _, _, heq⟩ := stdinTurn_frame snd stdinReady st
      rw [heq] at h
      exact (ih _ _ (by exact hopen) h :)

theorem stdinBranch_nil (snd : Sender) (side : StdinSide) (st : ExecState) {s' : Source}
    (h : side.stdin.read bufferSize = ([], s')) :
    stdinBranch snd side st =
      { st with
        stdin := some { side with stdin := s', active := false }
        shutdowns := st.shutdowns + 1 } := by
  unfold stdinBranch
  rw [h]

theorem stdinBranch_cons (snd : Sender) (side : StdinSide) (st : ExecState) {b : UInt8}
    {bs : Bytes} {s' : Source} (h : side.stdin.read bufferSize = (b :: bs, s')) :
    ∃ sent sends, stdinBranch snd side st =
      { st with
        stdin := some { side with stdin := s', stream := side.stream.update (b :: bs) }
        sent, sends } := by
  obtain ⟨n, -, heq⟩ := Sender.sendAll_eq snd (b :: bs) 0
    { st with stdin := some { side with stdin := s', stream := side.stream.update (b :: bs) } }
  unfold stdinBranch
  rw [h]
  exact ⟨_, _, heq⟩

-- While the container is silent, each turn that finds stdin readable reads at least one byte
-- of it and sends it on, until a read comes back empty and the write side is shut.
theorem execLoop_drains (k : Nat) :
    ∀ (st : ExecState) (side : StdinSide), st.cSocketOpen = true → StdinSound input st →
      st.stdin = some side → side.active = true → side.stdin.bytes.length < k →
      ∃ st', execLoop bufferOutput snd (List.replicate k (.ready false true)) st = .ok st' ∧
        st'.sent = input ∧ st'.shutdowns = 1 := by
  induction k with
  | zero => intro _ _ _ _ _ _ h; omega
  | succ k ih =>
      intro st side hopen hs hside hact hlen
      have hs₁ : StdinSound input (stdinBranch snd side st) :=
        stdinBranch_stdinSound side hside hact hs
      obtain ⟨side', hside', hsent, -, -, hshut⟩ := hs
      obtain rfl : side = side' := Option.some.inj (hside.symm.trans hside')
      have h0 : st.shutdowns = 0 := hshut.resolve_right (by simp [hact])
      have hturn : stdinTurn snd true st = stdinBranch snd side st := by
        simp [stdinTurn, hside, hact]
      rw [List.replicate_succ, execLoop_stdin_only true _ hopen, hturn]
      rcases hr : side.stdin.read bufferSize with ⟨_ | ⟨b, bs⟩, s'⟩
      · -- stdin is exhausted: the write side is shut, and later turns leave it so
        rw [stdinBranch_nil snd side st hr]
        obtain ⟨st', hrun⟩ := execLoop_stdin_turns bufferOutput snd k true
          { st with
            stdin := some { side with stdin := s', active := false }
            shutdowns := st.shutdowns + 1 }
        obtain ⟨hsent', hshut'⟩ := execLoop_idle _ hrun
          fun _ h => by cases h; rfl
        have hnil := (Source.read_eq_nil (by decide) hr).1
        refine ⟨st', hrun, ?_, ?_⟩
        · rw [hsent', ← hsent, hnil, List.append_nil]
        · rw [hshut', h0]
      · obtain ⟨sent, sends, heq⟩ := stdinBranch_cons snd side st hr
        rw [heq] at hs₁ ⊢
        have := Source.read_cons_lt hr
        exact ih _ { side with stdin := s', stream := side.stream.update (b :: bs) } hopen hs₁
          rfl hact (by dsimp only; omega)

-- While the container sends nothing, every turn that finds stdin readable reads some of it
-- and sends it on. So after one such turn more than stdin has bytes, the container has been
-- sent all of stdin, and the socket's write side has been shut: the command sees its input end.
theorem silent_container_gets_all_stdin (cSocket stdin : Source) (writeStdout : Bool) (k : Nat)
    (hk : stdin.bytes.length < k) :
    ∃ st, execLoop bufferOutput snd (List.replicate k (.ready false true))
        (ExecState.init cSocket (some stdin) writeStdout) = .ok st ∧
      st.sent = stdin.bytes ∧ st.shutdowns = 1 :=
  execLoop_drains k _ _ rfl ⟨_, rfl, rfl, rfl, rfl, .inl rfl⟩ rfl rfl hk

theorem silent_container_gets_all_stdin_hi :
    stdinHi.bytes.length < 3 ∧
      ∃ st, execLoop true byteSends (List.replicate 3 (.ready false true))
          (ExecState.init echoFrame (some stdinHi) true) = .ok st ∧
        st.sent = stdinHi.bytes ∧ st.shutdowns = 1 :=
  ⟨by decide, silent_container_gets_all_stdin echoFrame stdinHi true 3 (by decide)⟩

-- When `select` raises `io.UnsupportedOperation` with stdin still among `active_streams`, the
-- loop drops stdin and goes on. From then on it sends nothing and never shuts the socket's
-- write side, so the command never sees the end of its stdin.
theorem unsupported_leaves_stdin_open (cSocket stdin : Source) (writeStdout : Bool)
    (xs ys : List Selected) (st₁ st' : ExecState)
    (h₁ : execLoop bufferOutput snd xs (ExecState.init cSocket (some stdin) writeStdout) = .ok st₁)
    (hopen : st₁.cSocketOpen = true)
    (h : execLoop bufferOutput snd (xs ++ .unsupported :: ys)
      (ExecState.init cSocket (some stdin) writeStdout) = .ok st') :
    st'.sent = st₁.sent ∧ st'.shutdowns = 0 := by
  rw [execLoop_append, h₁] at h
  obtain ⟨side, hside, -, -, -, hs⟩ := execLoop_stdinSound cSocket stdin writeStdout xs h₁
  cases hact : side.active with
  | false => simp [Except.bind, execLoop, hopen, iteration, hside, hact] at h
  | true =>
      simp only [Except.bind, execLoop, hopen, if_true, iteration, hside, hact] at h
      obtain ⟨hsent, hshut⟩ := execLoop_idle ys h fun s hs' => by cases hs'; rfl
      exact ⟨hsent, hshut.trans (hs.resolve_right (by simp [hact]))⟩

theorem unsupported_leaves_stdin_open_hi :
    ∃ st₁ st', execLoop true byteSends [] (ExecState.init echoFrame (some stdinHi) true) =
        .ok st₁ ∧ st₁.cSocketOpen = true ∧
      execLoop true byteSends ([] ++ .unsupported :: [.ready false true])
        (ExecState.init echoFrame (some stdinHi) true) = .ok st' ∧
      (st'.sent = st₁.sent ∧ st'.shutdowns = 0) :=
  ⟨_, _, rfl, rfl, rfl, @unsupported_leaves_stdin_open true byteSends echoFrame stdinHi true
    [] [.ready false true] _ _ rfl rfl rfl⟩

-- A raise that the loop survives drops stdin from `active_streams`.
theorem iteration_unsupported_idle (h : iteration bufferOutput snd st .unsupported = .ok st') :
    StdinIdle st' := by
  simp only [iteration] at h
  split at h
  · split at h
    · cases h; rintro _ ⟨⟩; rfl
    · cases h
  · cases h

-- Nothing brings stdin back into `active_streams`.
theorem execLoop_stdinIdle (sels : List Selected) (h : execLoop bufferOutput snd sels st = .ok st')
    (hidle : StdinIdle st) : StdinIdle st' :=
  execLoop_induction StdinIdle (fun _ sel _ hs _ hstep => (iteration_idle sel hstep hs).1) sels
    hidle h

-- A run that leaves the socket open had it open after each of its prefixes.
theorem execLoop_open_prefix (xs ys : List Selected)
    (h : execLoop bufferOutput snd (xs ++ ys) st = .ok st') (hopen : st'.cSocketOpen = true) :
    ∃ st₁, execLoop bufferOutput snd xs st = .ok st₁ ∧ st₁.cSocketOpen = true ∧
      execLoop bufferOutput snd ys st₁ = .ok st' := by
  rw [execLoop_append] at h
  cases hx : execLoop bufferOutput snd xs st with
  | error e => rw [hx] at h; cases h
  | ok st₁ =>
      replace h : execLoop bufferOutput snd ys st₁ = .ok st' := by rw [hx] at h; exact h
      cases hopen₁ : st₁.cSocketOpen
      · rw [execLoop_closed ys hopen₁] at h
        cases h
        simp [hopen₁] at hopen
      · exact ⟨st₁, rfl, hopen₁, h⟩

-- `select` raising `io.UnsupportedOperation` is survived at most once: the first raise with the
-- socket open drops stdin from `active_streams` and no later turn brings it back, so a second
-- raise while the socket is open ends `__container_exec` with the exception, whatever came
-- between the two and whatever `select` would say next.
theorem unsupported_survived_once (md5 : Bytes → BitVec 128) (name : String)
    (cmdArgs cmd : List String) (cSocket : Source) (stdin : Option Source) (writeStdout : Bool)
    (xs ys zs : List Selected) (exitCode : Int) (st : ExecState)
    (h : execLoop bufferOutput snd (xs ++ .unsupported :: ys)
      (ExecState.init cSocket stdin writeStdout) = .ok st)
    (hopen : st.cSocketOpen = true) :
    containerExec md5 bufferOutput snd name cmdArgs cmd cSocket stdin writeStdout
      (xs ++ .unsupported :: ys ++ .unsupported :: zs) exitCode =
        some (.error .unsupportedOperation) := by
  obtain ⟨st₁, -, hopen₁, h'⟩ := execLoop_open_prefix xs _ h hopen
  simp only [execLoop, hopen₁, if_true] at h'
  -- the first raise was survived, so stdin is idle from then on
  cases hi : iteration bufferOutput snd st₁ .unsupported with
  | error e => rw [hi] at h'; cases h'
  | ok st₂ =>
      rw [hi] at h'
      have hidle := execLoop_stdinIdle ys h' (iteration_unsupported_idle hi)
      have hraise : iteration bufferOutput snd st .unsupported = .error .unsupportedOperation := by
        cases hs : st.stdin with
        | none => simp [iteration, hs]
        | some side => simp [iteration, hs, hidle side hs]
      rw [containerExec, execLoop_append, h]
      simp only [Except.bind, execLoop, hopen, if_true, hraise]

theorem unsupported_survived_once_hi :
    ∃ st, execLoop true byteSends ([] ++ .unsupported :: [.ready false true])
        (ExecState.init echoFrame (some stdinHi) true) = .ok st ∧ st.cSocketOpen = true ∧
      containerExec (fun _ => 0) true byteSends "cat" [] [] echoFrame (some stdinHi) true
        ([] ++ .unsupported :: [.ready false true] ++ .unsupported :: []) 0 =
          some (.error .unsupportedOperation) :=
  ⟨_, rfl, rfl, unsupported_survived_once (fun _ => 0) "cat" [] [] echoFrame (some stdinHi) true
    [] [.ready false true] [] 0 _ rfl rfl⟩

end Stdin

end CincanCommand.Frontend
