import Mathlib.Data.List.Basic
import Mathlib.Data.Nat.Digits

namespace CincanCommand

-- A path, as `as_posix()` spells it.
abbrev Path := String

abbrev Bytes := List UInt8

structure FileLog where
  path : Path
  md5 : String
deriving DecidableEq, Repr

structure CommandLog where
  command : List String
  exitCode : Int
  inFiles : List FileLog
  outFiles : List FileLog
  stdin : Bytes
  stdout : Bytes
  stderr : Bytes
deriving DecidableEq, Repr

/-- Modelled from the spec: `cincan.command_log` is not in the sources. `CommandLog(command)`
starts with exit code 0, no files and no collected output. -/
def CommandLog.new (command : List String) : CommandLog :=
  ⟨command, 0, [], [], [], [], []⟩

/-- Modelled from the spec: `CommandLogIndex` of `cincan.command_log` is not in the sources.
The store keeps its entries in insertion order, and `list_entries(reverse=True)` enumerates
them newest first. -/
structure CommandLogIndex where
  entries : List CommandLog

/-- Modelled from the spec: `CommandLogIndex.list_entries` enumerates the entries in insertion
order, or newest first when `reverse` is set. -/
def CommandLogIndex.listEntries (log : CommandLogIndex) (reverse : Bool) : List CommandLog :=
  if reverse then log.entries.reverse else log.entries

/-- Modelled from the spec: `CommandLogWriter().write(log)` appends the entry at the tail of the
store. -/
def CommandLogIndex.append (log : CommandLogIndex) (entry : CommandLog) : CommandLogIndex :=
  ⟨log.entries ++ [entry]⟩

-- The `n` low hexadecimal digits of `v`, most significant first.
def hexDigits : Nat → Nat → List Char
  | 0, _ => []
  | n + 1, v => hexDigits n (v / 16) ++ [Nat.digitChar (v % 16)]

-- `hashlib.md5(...).hexdigest()`: the 16 digest bytes as 32 lowercase hexadecimal digits.
def hexdigest (digest : BitVec 128) : String :=
  ⟨hexDigits 32 digest.toNat⟩

theorem length_hexDigits (n v : Nat) : (hexDigits n v).length = n := by
  induction n generalizing v with
  | zero => rfl
  | succ n ih => simp [hexDigits, ih]

private theorem digitChar_ne_colon (d : Nat) (hd : d < 16) : Nat.digitChar d ≠ ':' := by
  interval_cases d <;> decide

theorem colon_not_mem_hexDigits (n v : Nat) : ':' ∉ hexDigits n v := by
  induction n generalizing v with
  | zero => simp [hexDigits]
  | succ n ih =>
      simp only [hexDigits, List.mem_append, List.mem_singleton, not_or]
      exact ⟨ih _, (digitChar_ne_colon _ (Nat.mod_lt _ (by decide))).symm⟩

-- A hex digest is never empty and never holds the key separator `:`.
theorem hexdigest_ne_empty (digest : BitVec 128) : hexdigest digest ≠ "" := by
  intro h
  have := congrArg String.length h
  simp [hexdigest, String.length, length_hexDigits] at this

theorem colon_not_mem_hexdigest (digest : BitVec 128) : ':' ∉ (hexdigest digest).toList :=
  colon_not_mem_hexDigits 32 _

end CincanCommand
