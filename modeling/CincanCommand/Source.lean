import CincanCommand.CommandLog

namespace CincanCommand

-- `read(n)` returns at most `n` bytes of the first piece still there, so at least one while
-- any are left, and b'' only at the end. Every way of answering reads with between 1 and `n`
-- of the next bytes is some cutting into pieces.
structure Source where
  pieces : List Bytes
  pieces_ne : ∀ piece ∈ pieces, piece ≠ []

namespace Source

-- The bytes not read yet.
def bytes (s : Source) : Bytes := s.pieces.flatten

def read (s : Source) (n : Nat) : Bytes × Source :=
  match s with
  | ⟨[], h⟩ => ([], ⟨[], h⟩)
  | ⟨piece :: rest, h⟩ =>
    if hn : n < piece.length then
      (piece.take n, ⟨piece.drop n :: rest, by
        intro p hp
        rcases List.mem_cons.mp hp with rfl | hp
        · simpa using hn
        · exact h p (List.mem_cons_of_mem _ hp)⟩)
    else (piece, ⟨rest, fun p hp => h p (List.mem_cons_of_mem _ hp)⟩)

-- A read returns the first bytes still there, at most `n` of them, and at least one when
-- `n > 0` and the source is not exhausted.
theorem read_spec (s : Source) (n : Nat) :
    ∃ k, k ≤ n ∧ (0 < n → s.bytes ≠ [] → 0 < k) ∧
      (s.read n).1 = s.bytes.take k ∧ (s.read n).2.bytes = s.bytes.drop k := by
  rcases s with ⟨_ | ⟨piece, rest⟩, h⟩
  · exact ⟨0, Nat.zero_le _, by simp [bytes], rfl, rfl⟩
  · have hp : 0 < piece.length := List.length_pos.mpr (h piece (List.mem_cons_self ..))
    by_cases hn : n < piece.length
    · refine ⟨n, le_rfl, fun h _ => h, ?_, ?_⟩ <;>
        simp [read, hn, bytes, List.take_append_of_le_length hn.le,
          List.drop_append_of_le_length hn.le]
    · refine ⟨piece.length, by omega, fun _ _ => hp, ?_, ?_⟩ <;>
        simp [read, hn, bytes]

-- No byte is lost or invented: what a read returns, then what is left, is what was there.
theorem read_append (s : Source) (n : Nat) : (s.read n).1 ++ (s.read n).2.bytes = s.bytes := by
  obtain ⟨k, -, -, hr, hrest⟩ := s.read_spec n
  rw [hr, hrest, List.take_append_drop]

-- A read of at least one byte comes back empty only at the end.
theorem read_eq_nil {s s' : Source} {n : Nat} (hn : 0 < n) (h : s.read n = ([], s')) :
    s.bytes = [] ∧ s'.bytes = [] := by
  obtain ⟨k, -, hpos, hr, -⟩ := s.read_spec n
  have h₂ := s.read_append n
  rw [h] at hr h₂
  have hnil : s.bytes = [] := by
    by_contra hne
    have h₀ := congrArg List.length hr
    simp only [List.length_nil, List.length_take] at h₀
    have := hpos hn hne
    have := List.length_pos.mpr hne
    omega
  exact ⟨hnil, by simpa [hnil] using h₂⟩

-- A read that returns bytes leaves fewer behind.
theorem read_cons_lt {s s' : Source} {n : Nat} {b : UInt8} {bs : Bytes}
    (h : s.read n = (b :: bs, s')) : s'.bytes.length < s.bytes.length := by
  have h₂ := s.read_append n
  rw [h] at h₂
  simp only [← h₂, List.cons_append, List.length_cons, List.length_append]
  omega

end Source

end CincanCommand
