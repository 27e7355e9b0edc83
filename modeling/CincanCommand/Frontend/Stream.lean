import CincanCommand.Source

namespace CincanCommand.Source

-- `while len(buf) < need: r = c_socket.read(need - len(buf)); if not r: <stop>; buf.extend(r)`:
-- the buffer once it holds `need` bytes, or `none` when a read returns b''.
def fill (need : Nat) (buf : Bytes) (s : Source) : Option Bytes × Source :=
  if buf.length < need then
    match s.read (need - buf.length) with
    | ([], s') => (none, s')
    | (b :: bs, s') => fill need (buf ++ b :: bs) s'
  else (some buf, s)
termination_by need - buf.length
decreasing_by simp_wf; omega

-- With enough bytes left, the loop takes exactly the bytes it lacks.
theorem fill_full (need : Nat) (buf : Bytes) (s : Source) (hbuf : buf.length ≤ need)
    (henough : need - buf.length ≤ s.bytes.length) :
    (s.fill need buf).1 = some (buf ++ s.bytes.take (need - buf.length)) ∧
      (s.fill need buf).2.bytes = s.bytes.drop (need - buf.length) := by
  induction buf, s using fill.induct need with
  | case1 buf s hlt s' heq =>
      have hnil := (read_eq_nil (by omega) heq).1
      simp only [hnil, List.length_nil] at henough
      omega
  | case2 buf s hlt b bs s' heq ih =>
      obtain ⟨k, hk, -, hr, hrest⟩ := s.read_spec (need - buf.length)
      rw [heq] at hr hrest
      dsimp only at hr hrest
      have hlen : (b :: bs).length = k := by rw [hr, List.length_take]; omega
      have hsplit : need - buf.length = k + (need - (buf ++ b :: bs).length) := by
        simp only [List.length_append] at hlen ⊢; omega
      obtain ⟨h₁, h₂⟩ := ih (by simp only [List.length_append] at hlen ⊢; omega)
        (by simp only [hrest, List.length_drop, List.length_append] at hlen ⊢; omega)
      rw [fill, if_pos hlt, heq]
      refine ⟨?_, ?_⟩
      · rw [h₁, hrest, hsplit, List.take_add, ← hr, List.append_assoc]
      · rw [h₂, hrest, hsplit, List.drop_drop]
  | case3 buf s hge =>
      have h₀ : need - buf.length = 0 := by omega
      rw [fill, if_neg hge, h₀]
      simp

-- When the bytes run out first, a read returns b'' and the loop stops with nothing left.
theorem fill_short (need : Nat) (buf : Bytes) (s : Source)
    (hshort : s.bytes.length < need - buf.length) :
    (s.fill need buf).1 = none ∧ (s.fill need buf).2.bytes = [] := by
  induction buf, s using fill.induct need with
  | case1 buf s hlt s' heq =>
      rw [fill, if_pos hlt, heq]
      exact ⟨rfl, (read_eq_nil (by omega) heq).2⟩
  | case2 buf s hlt b bs s' heq ih =>
      obtain ⟨k, -, -, hr, hrest⟩ := s.read_spec (need - buf.length)
      rw [heq] at hr hrest
      dsimp only at hr hrest
      have hlen : (b :: bs).length = min k s.bytes.length := by rw [hr, List.length_take]
      rw [fill, if_pos hlt, heq]
      exact ih (by simp only [hrest, List.length_drop, List.length_append] at hlen ⊢; omega)
  | case3 buf s hge => omega

-- A loop that returns a buffer took exactly `need` bytes off the front of the stream.
theorem fill_some {need : Nat} {s : Source} {r : Bytes} (h : (s.fill need []).1 = some r) :
    s.bytes = r ++ (s.fill need []).2.bytes ∧ r.length = need := by
  by_cases hn : need ≤ s.bytes.length
  · obtain ⟨h₁, h₂⟩ := s.fill_full need [] (Nat.zero_le _) (by simpa using hn)
    rw [h] at h₁
    simp only [List.length_nil, Nat.sub_zero, List.nil_append, Option.some.injEq] at h₁ h₂
    subst h₁
    exact ⟨by rw [h₂, List.take_append_drop], by simp [hn]⟩
  · rw [(s.fill_short need [] (by simpa using hn)).1] at h
    cases h

end CincanCommand.Source

namespace CincanCommand.Frontend

-- `struct.unpack('>Q', buf)[0]`: the bytes as a big-endian number.
def unpackQ (buf : Bytes) : Nat :=
  buf.foldl (fun acc b => acc * 256 + b.toNat) 0

-- The `n` low bytes of `v`, most significant first.
def toBytesBE : Nat → Nat → Bytes
  | 0, _ => []
  | n + 1, v => toBytesBE n (v / 256) ++ [UInt8.ofNat (v % 256)]

theorem length_toBytesBE (n v : Nat) : (toBytesBE n v).length = n := by
  induction n generalizing v with
  | zero => rfl
  | succ n ih => simp [toBytesBE, ih]

theorem unpackQ_toBytesBE (n v : Nat) : unpackQ (toBytesBE n v) = v % 256 ^ n := by
  induction n generalizing v with
  | zero => simp [toBytesBE, unpackQ, Nat.mod_one]
  | succ n ih =>
      have hb : (UInt8.ofNat (v % 256)).toNat = v % 256 :=
        UInt8.toNat_ofNat_of_lt (Nat.mod_lt _ (by decide))
      have ih' := ih (v / 256)
      simp only [unpackQ] at ih' ⊢
      rw [toBytesBE, List.foldl_append, ih', List.foldl_cons, List.foldl_nil, hb, pow_succ',
        Nat.mod_mul]
      ring

theorem toBytesBE_add (m n v : Nat) :
    toBytesBE (m + n) v = toBytesBE m (v / 256 ^ n) ++ toBytesBE n v := by
  induction n generalizing v with
  | zero => simp [toBytesBE]
  | succ n ih =>
      rw [← Nat.add_assoc, toBytesBE, ih, toBytesBE, List.append_assoc, Nat.div_div_eq_div_mul,
        pow_succ']

theorem toBytesBE_mod (n v : Nat) : toBytesBE n (v % 256 ^ n) = toBytesBE n v := by
  induction n generalizing v with
  | zero => rfl
  | succ n ih =>
      rw [toBytesBE, toBytesBE, pow_succ', Nat.mod_mul_right_div_self, ih,
        Nat.mod_mod_of_dvd _ (Dvd.intro _ rfl)]

theorem unpackQ_append_singleton (buf : Bytes) (b : UInt8) :
    unpackQ (buf ++ [b]) = unpackQ buf * 256 + b.toNat := by
  simp only [unpackQ, List.foldl_append, List.foldl_cons, List.foldl_nil]

theorem unpackQ_lt (buf : Bytes) : unpackQ buf < 256 ^ buf.length := by
  induction buf using List.reverseRecOn with
  | nil => decide
  | append_singleton buf b ih =>
      have hb : b.toNat < 256 := b.val.isLt
      rw [unpackQ_append_singleton, List.length_append, List.length_singleton, pow_succ]
      omega

theorem ofNat_toNat (b : UInt8) : UInt8.ofNat b.toNat = b :=
  UInt8.eq_of_val_eq (Fin.ext (UInt8.toNat_ofNat_of_lt b.val.isLt))

-- Decoding then encoding gives back any buffer.
theorem toBytesBE_unpackQ (buf : Bytes) : toBytesBE buf.length (unpackQ buf) = buf := by
  induction buf using List.reverseRecOn with
  | nil => rfl
  | append_singleton buf b ih =>
      have hb : b.toNat < 256 := b.val.isLt
      rw [List.length_append, List.length_singleton, toBytesBE, unpackQ_append_singleton,
        Nat.mul_comm, Nat.mul_add_div (by decide), Nat.div_eq_of_lt hb, Nat.add_zero, ih,
        Nat.mul_add_mod, Nat.mod_eq_of_lt hb, ofNat_toNat]

-- A frame as the container sends it: the header `type * 2^56 + len(payload)`, then the payload.
def encodeFrame (frame : Nat × Bytes) : Bytes :=
  toBytesBE 8 (frame.1 * 2 ^ 56 + frame.2.length) ++ frame.2

-- For payloads under 4 GiB the header is Docker's: the type, three zero bytes, and the length
-- as four big-endian bytes.
theorem encodeFrame_docker (t : Nat) (payload : Bytes) (ht : t < 256)
    (hlen : payload.length < 2 ^ 32) :
    encodeFrame (t, payload) =
      [UInt8.ofNat t, 0, 0, 0] ++ toBytesBE 4 payload.length ++ payload := by
  have h₁ : (t * 2 ^ 56 + payload.length) / 256 ^ 4 / 256 ^ 3 = t := by norm_num; omega
  have h₂ : (t * 2 ^ 56 + payload.length) / 256 ^ 4 % 256 ^ 3 = 0 := by norm_num; omega
  have h₃ : (t * 2 ^ 56 + payload.length) % 256 ^ 4 = payload.length := by norm_num; omega
  rw [encodeFrame, show 8 = 1 + 3 + 4 from rfl, toBytesBE_add, toBytesBE_add, ← toBytesBE_mod 3,
    ← toBytesBE_mod 4 (_ + _), h₁, h₂, h₃]
  simp [toBytesBE, Nat.mod_eq_of_lt ht]

-- `ToolImage.__unpack_container_stream`
def unpackContainerStream (sock : Source) : Except String (Nat × Bytes) × Source :=
  match sock.fill 8 [] with
  | (none, sock) => (.ok (0, []), sock)
  | (some header, sock) =>
    let sLen := unpackQ header
    let sType := sLen >>> 56
    let sLen := sLen &&& 0xffffffffffffff
    match sock.fill sLen [] with
    | (none, sock) => (.error "Failed to read all data from the container", sock)
    | (some payload, sock) => (.ok (sType, payload), sock)

-- The header fields of a well-formed frame come back out of its eight bytes.
theorem header_fields (t len : Nat) (ht : t < 256) (hlen : len < 2 ^ 56) :
    unpackQ (toBytesBE 8 (t * 2 ^ 56 + len)) >>> 56 = t ∧
      unpackQ (toBytesBE 8 (t * 2 ^ 56 + len)) &&& 0xffffffffffffff = len := by
  have hmask : (0xffffffffffffff : Nat) = 2 ^ 56 - 1 := by norm_num
  rw [unpackQ_toBytesBE, Nat.mod_eq_of_lt (by norm_num at hlen ⊢; omega), hmask,
    Nat.and_pow_two_sub_one_eq_mod, Nat.shiftRight_eq_div_pow]
  constructor
  · rw [Nat.add_comm, Nat.add_mul_div_right _ _ (by norm_num), Nat.div_eq_of_lt hlen, Nat.zero_add]
  · rw [Nat.add_comm, Nat.add_mul_mod_self_right, Nat.mod_eq_of_lt hlen]

-- A whole header at the front of the socket is read and decoded, and the call goes on to read
-- the payload length it declares from what follows.
theorem unpack_header (sock : Source) (t len : Nat) (rest : Bytes) (ht : t < 256)
    (hlen : len < 2 ^ 56) (hsock : sock.bytes = toBytesBE 8 (t * 2 ^ 56 + len) ++ rest) :
    ∃ s : Source, s.bytes = rest ∧ unpackContainerStream sock =
      match s.fill len [] with
      | (none, s) => (.error "Failed to read all data from the container", s)
      | (some payload, s) => (.ok (t, payload), s) := by
  have hh := length_toBytesBE 8 (t * 2 ^ 56 + len)
  obtain ⟨h₁, h₂⟩ := sock.fill_full 8 [] (Nat.zero_le _)
    (by simp only [hsock, List.length_append, hh]; omega)
  simp only [List.length_nil, Nat.sub_zero, List.nil_append, hsock] at h₁ h₂
  rw [List.take_append_of_le_length (by omega), List.take_of_length_le (by omega)] at h₁
  rw [List.drop_append_of_le_length (by omega), List.drop_of_length_le (by omega),
    List.nil_append] at h₂
  obtain ⟨htype, hsize⟩ := header_fields t len ht hlen
  rcases hf : sock.fill 8 [] with ⟨header, s⟩
  rw [hf] at h₁ h₂
  subst h₁
  exact ⟨s, h₂, by simp only [unpackContainerStream, hf, htype, hsize]⟩

-- A well-formed frame at the front of the socket, cut into reads in any way, comes back whole,
-- and exactly its bytes are consumed.
theorem unpack_frame (sock : Source) (t : Nat) (payload rest : Bytes) (ht : t < 256)
    (hlen : payload.length < 2 ^ 56) (hsock : sock.bytes = encodeFrame (t, payload) ++ rest) :
    (unpackContainerStream sock).1 = .ok (t, payload) ∧
      (unpackContainerStream sock).2.bytes = rest := by
  obtain ⟨s, hs, heq⟩ := unpack_header sock t payload.length (payload ++ rest) ht hlen
    (by rw [hsock, encodeFrame, List.append_assoc])
  obtain ⟨h₁, h₂⟩ := s.fill_full payload.length [] (Nat.zero_le _) (by simp [hs])
  simp only [List.length_nil, Nat.sub_zero, List.nil_append, hs, List.take_left',
    List.drop_left'] at h₁ h₂
  rcases hf : s.fill payload.length [] with ⟨r, s'⟩
  rw [hf] at h₁ h₂
  subst h₁
  rw [heq, hf]
  exact ⟨rfl, h₂⟩

theorem mask_eq_mod (v : Nat) : v &&& 0xffffffffffffff = v % 2 ^ 56 := by
  rw [show (0xffffffffffffff : Nat) = 2 ^ 56 - 1 by norm_num, Nat.and_pow_two_sub_one_eq_mod]

-- A frame built from the fields the call reads out of eight header bytes, with a payload of
-- the declared length, encodes to those bytes and then the payload.
theorem encodeFrame_header (header payload : Bytes) (hheader : header.length = 8)
    (hlen : payload.length = unpackQ header &&& 0xffffffffffffff) :
    encodeFrame (unpackQ header >>> 56, payload) = header ++ payload := by
  rw [encodeFrame, hlen, mask_eq_mod, Nat.shiftRight_eq_div_pow, Nat.div_add_mod', ← hheader,
    toBytesBE_unpackQ]

-- Whatever eight bytes open the socket are taken for a header: once the payload length they
-- declare follows, the call returns a frame, and encoding that frame gives back exactly the
-- bytes the call consumed.
theorem unpack_reencodes (sock : Source) (header rest : Bytes) (hheader : header.length = 8)
    (hsock : sock.bytes = header ++ rest)
    (hroom : unpackQ header &&& 0xffffffffffffff ≤ rest.length) :
    ∃ frame, (unpackContainerStream sock).1 = .ok frame ∧
      encodeFrame frame ++ (unpackContainerStream sock).2.bytes = sock.bytes := by
  have hlt : unpackQ header < 256 ^ 8 := hheader ▸ unpackQ_lt header
  have hsplit : sock.bytes = encodeFrame (unpackQ header >>> 56,
      rest.take (unpackQ header &&& 0xffffffffffffff)) ++
        rest.drop (unpackQ header &&& 0xffffffffffffff) := by
    rw [encodeFrame_header header _ hheader (List.length_take_of_le hroom), List.append_assoc,
      List.take_append_drop, hsock]
  obtain ⟨h₁, h₂⟩ := unpack_frame sock _ _ _ (by rw [Nat.shiftRight_eq_div_pow]; omega)
    (by rw [List.length_take, mask_eq_mod]; omega) hsplit
  exact ⟨_, h₁, h₂ ▸ hsplit.symm⟩

-- A stdout frame holding `Hi`, its header cut across two reads.
def splitHeader : Source := ⟨[[1, 0, 0, 0, 0, 0], [0, 2, 72, 105]], by decide⟩

theorem unpack_reencodes_split_header :
    ([1, 0, 0, 0, 0, 0, 0, 2] : Bytes).length = 8 ∧
      splitHeader.bytes = [1, 0, 0, 0, 0, 0, 0, 2] ++ [72, 105] ∧
      unpackQ [1, 0, 0, 0, 0, 0, 0, 2] &&& 0xffffffffffffff ≤ ([72, 105] : Bytes).length ∧
      ∃ frame, (unpackContainerStream splitHeader).1 = .ok frame ∧
        encodeFrame frame ++ (unpackContainerStream splitHeader).2.bytes = splitHeader.bytes :=
  ⟨rfl, rfl, by decide, unpack_reencodes splitHeader [1, 0, 0, 0, 0, 0, 0, 2] [72, 105] rfl rfl
    (by decide)⟩

-- Conversely, a call that returns a frame with data read exactly that frame: its header, then
-- its payload. The reader never invents, drops or reorders a byte.
theorem unpack_consumed (sock : Source) (t : Nat) (payload : Bytes)
    (h : (unpackContainerStream sock).1 = .ok (t, payload)) (hne : payload ≠ []) :
    sock.bytes = encodeFrame (t, payload) ++ (unpackContainerStream sock).2.bytes := by
  unfold unpackContainerStream at h ⊢
  rcases hf : sock.fill 8 [] with ⟨_ | header, s⟩
  · simp only [hf, Except.ok.injEq, Prod.mk.injEq] at h
    exact absurd h.2.symm hne
  · obtain ⟨h₁, hlen₁⟩ := Source.fill_some (show (sock.fill 8 []).1 = some header by rw [hf])
    rw [hf] at h₁
    simp only [hf] at h ⊢
    rcases hp : s.fill (unpackQ header &&& 0xffffffffffffff) [] with ⟨_ | payload', s'⟩
    · simp [hp] at h
    · simp only [hp, Except.ok.injEq, Prod.mk.injEq] at h ⊢
      obtain ⟨rfl, rfl⟩ := h
      obtain ⟨h₂, hlen₂⟩ := Source.fill_some (show (s.fill _ []).1 = some payload' by rw [hp])
      rw [hp] at h₂
      rw [h₁, h₂, encodeFrame_header header payload' hlen₁ hlen₂, List.append_assoc]

theorem unpack_consumed_split_header :
    (unpackContainerStream splitHeader).1 = .ok (1, [72, 105]) ∧ ([72, 105] : Bytes) ≠ [] ∧
      splitHeader.bytes =
        encodeFrame (1, [72, 105]) ++ (unpackContainerStream splitHeader).2.bytes :=
  have h := (unpack_frame splitHeader 1 [72, 105] [] (by decide) (by decide) (by decide)).1
  ⟨h, by decide, unpack_consumed splitHeader 1 [72, 105] h (by decide)⟩

-- An exhausted socket gives `(0, b'')`.
theorem unpack_end (sock : Source) (hsock : sock.bytes = []) :
    (unpackContainerStream sock).1 = .ok (0, []) ∧ (unpackContainerStream sock).2.bytes = [] := by
  obtain ⟨h₁, h₂⟩ := sock.fill_short 8 [] (by simp [hsock])
  simp only [unpackContainerStream]
  split
  · rename_i heq; rw [heq] at h₂; exact ⟨rfl, h₂⟩
  · rename_i heq; rw [heq] at h₁; simp at h₁

-- `n` successive calls on one socket: what each returned, and the socket after them.
def unpackCalls : Nat → Source → List (Except String (Nat × Bytes)) × Source
  | 0, sock => ([], sock)
  | n + 1, sock =>
    let (r, sock) := unpackContainerStream sock
    let (rs, sock) := unpackCalls n sock
    (r :: rs, sock)

-- Successive calls on a stream of well-formed frames, however it is cut into reads, return the
-- frames in order, each consuming exactly its own bytes, and then `(0, b'')`.
theorem unpack_frames (frames : List (Nat × Bytes))
    (hframes : ∀ f ∈ frames, f.1 < 256 ∧ f.2.length < 2 ^ 56) (sock : Source)
    (hsock : sock.bytes = frames.flatMap encodeFrame) (n : Nat) :
    (unpackCalls n sock).1 =
        (frames.take n).map .ok ++ List.replicate (n - frames.length) (.ok (0, [])) ∧
      (unpackCalls n sock).2.bytes = (frames.drop n).flatMap encodeFrame := by
  induction n generalizing frames sock with
  | zero => simp [unpackCalls, hsock]
  | succ n ih =>
      cases frames with
      | nil =>
          obtain ⟨h₁, h₂⟩ := unpack_end sock (by simpa using hsock)
          obtain ⟨ih₁, ih₂⟩ := ih [] (by simp) _ (by simpa using h₂)
          simp only [unpackCalls, h₁] at ih₁ ih₂ ⊢
          simp [ih₁, ih₂, List.replicate_succ]
      | cons f frames =>
          obtain ⟨ht, hlen⟩ := hframes f (List.mem_cons_self ..)
          obtain ⟨h₁, h₂⟩ := unpack_frame sock f.1 f.2 _ ht hlen (by simpa using hsock)
          obtain ⟨ih₁, ih₂⟩ :=
            ih frames (fun g hg => hframes g (List.mem_cons_of_mem _ hg)) _ h₂
          simp only [unpackCalls, h₁] at ih₁ ih₂ ⊢
          simp [ih₁, ih₂]

-- One stdout frame holding `A`, delivered in two reads that cut its header.
def splitFrame : Source := ⟨[[1, 0, 0], [0, 0, 0, 0, 1, 65]], by decide⟩

theorem unpack_frames_split :
    (∀ f ∈ [((1 : Nat), ([65] : Bytes))], f.1 < 256 ∧ f.2.length < 2 ^ 56) ∧
      splitFrame.bytes = [((1 : Nat), ([65] : Bytes))].flatMap encodeFrame ∧
      (unpackCalls 2 splitFrame).1 =
          ([((1 : Nat), ([65] : Bytes))].take 2).map .ok ++ List.replicate (2 - 1) (.ok (0, [])) ∧
        (unpackCalls 2 splitFrame).2.bytes =
          ([((1 : Nat), ([65] : Bytes))].drop 2).flatMap encodeFrame :=
  have h₁ : ∀ f ∈ [((1 : Nat), ([65] : Bytes))], f.1 < 256 ∧ f.2.length < 2 ^ 56 := by
    decide
  have h₂ : splitFrame.bytes = [((1 : Nat), ([65] : Bytes))].flatMap encodeFrame := by decide
  ⟨h₁, h₂, unpack_frames _ h₁ splitFrame h₂ 2⟩

-- A socket that ends before a header is complete gives the end-of-stream result `(0, b'')`,
-- whether it ended at a frame boundary or after 1 to 7 bytes of a header.
theorem unpack_short_header (sock : Source) (hshort : sock.bytes.length < 8) :
    (unpackContainerStream sock).1 = .ok (0, []) := by
  obtain ⟨h₁, -⟩ := sock.fill_short 8 [] (by simpa using hshort)
  simp only [unpackContainerStream]
  split
  · rfl
  · rename_i heq; rw [heq] at h₁; simp at h₁

-- A socket that ends inside a payload makes the call raise.
theorem unpack_truncated_payload (sock : Source) (t len : Nat) (part : Bytes) (ht : t < 256)
    (hlen : len < 2 ^ 56) (hpart : part.length < len)
    (hsock : sock.bytes = toBytesBE 8 (t * 2 ^ 56 + len) ++ part) :
    (unpackContainerStream sock).1 = .error "Failed to read all data from the container" := by
  obtain ⟨s, hs, heq⟩ := unpack_header sock t len part ht hlen hsock
  obtain ⟨h₁, -⟩ := s.fill_short len [] (by simpa [hs] using hpart)
  rcases hf : s.fill len [] with ⟨r, s'⟩
  rw [hf] at h₁
  subst h₁
  rw [heq, hf]

-- The socket ends after the first byte of a header.
def truncatedHeader : Source := ⟨[[1]], by decide⟩

theorem truncated_header_reads_as_eof :
    truncatedHeader.bytes ≠ [] ∧ (unpackContainerStream truncatedHeader).1 = .ok (0, []) :=
  ⟨by decide, unpack_short_header truncatedHeader (by decide)⟩

end CincanCommand.Frontend
