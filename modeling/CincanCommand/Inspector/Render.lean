import CincanCommand.Inspector.Dependency
import Mathlib.Data.List.Basic

namespace CincanCommand.Inspector

-- `s.replace(c, r)` for a pattern of one character.
def replaceChar (c : Char) (r s : List Char) : List Char :=
  s.flatMap fun x => if x = c then r else [x]

-- A line break followed by `4 * k` spaces.
def breakAt (k : Nat) : List Char := '\n' :: List.replicate (4 * k) ' '

-- `str(s).replace('\n', '\n    ')`
def indent (s : List Char) : List Char :=
  replaceChar '\n' (breakAt 1) s

-- `p + p.join(next_strings) if next_strings else ''`
def joinChildren (p : List Char) (nextStrings : List (List Char)) : List Char :=
  if nextStrings = [] then [] else p ++ p.intercalate nextStrings

-- `file_string`: the path, then the first 16 characters of the digest or '/' when it is empty.
def fileString (file : Path) (digest : String) : List Char :=
  file.toList ++ if digest = "" then ['/'] else ' ' :: digest.toList.take 16

-- `cmd_string`: the arguments as `quote_args` quotes them, joined by spaces.
def cmdString (quoteArgs : List String → List String) (command : CommandLog) : List Char :=
  (" ".intercalate (quoteArgs command.command)).toList

def fileConnector (out : Bool) : List Char :=
  if out then "|-- ".toList else "^-- ".toList

def commandConnector (out : Bool) : List Char :=
  if out then "|-->".toList else "^---".toList

-- `__str__` of both node kinds; `quote_args` is given.
mutual
def FileDependency.str (quoteArgs : List String → List String) : FileDependency → List Char
  | .mk file digest out next =>
      fileString file digest ++ joinChildren ('\n' :: fileConnector out)
        (CommandDependency.strList quoteArgs next)
def CommandDependency.strList (quoteArgs : List String → List String) :
    List CommandDependency → List (List Char)
  | [] => []
  | c :: cs => indent (c.str quoteArgs) :: CommandDependency.strList quoteArgs cs
def CommandDependency.str (quoteArgs : List String → List String) :
    CommandDependency → List Char
  | .mk command out next =>
      cmdString quoteArgs command ++ joinChildren ('\n' :: commandConnector out)
        (FileDependency.strList quoteArgs next)
def FileDependency.strList (quoteArgs : List String → List String) :
    List FileDependency → List (List Char)
  | [] => []
  | f :: fs => indent (f.str quoteArgs) :: FileDependency.strList quoteArgs fs
end

-- What fixes a node's connector: the kind of its parent and the parent's direction.
inductive Parent where
  | root
  | file (out : Bool)
  | command (out : Bool)

def Parent.connector : Parent → List Char
  | root => []
  | file out => fileConnector out
  | command out => commandConnector out

-- One node of a rendered tree: its depth, its parent, and its label.
structure Line where
  depth : Nat
  parent : Parent
  label : List Char

-- `4 * (depth - 1)` spaces, the connector, and the label with every line break followed by
-- `4 * depth` spaces.
def Line.block (l : Line) : List Char :=
  List.replicate (4 * (l.depth - 1)) ' ' ++ l.parent.connector ++
    replaceChar '\n' (breakAt l.depth) l.label

-- The nodes of a tree in preorder, from a root at `depth` below `parent`.
mutual
def FileDependency.lines (quoteArgs : List String → List String) (depth : Nat) (parent : Parent) :
    FileDependency → List Line
  | .mk file digest out next =>
      ⟨depth, parent, fileString file digest⟩ ::
        CommandDependency.linesList quoteArgs (depth + 1) (.file out) next
def CommandDependency.linesList (quoteArgs : List String → List String) (depth : Nat)
    (parent : Parent) : List CommandDependency → List Line
  | [] => []
  | c :: cs =>
      c.lines quoteArgs depth parent ++ CommandDependency.linesList quoteArgs depth parent cs
def CommandDependency.lines (quoteArgs : List String → List String) (depth : Nat)
    (parent : Parent) : CommandDependency → List Line
  | .mk command out next =>
      ⟨depth, parent, cmdString quoteArgs command⟩ ::
        FileDependency.linesList quoteArgs (depth + 1) (.command out) next
def FileDependency.linesList (quoteArgs : List String → List String) (depth : Nat)
    (parent : Parent) : List FileDependency → List Line
  | [] => []
  | f :: fs => f.lines quoteArgs depth parent ++ FileDependency.linesList quoteArgs depth parent fs
end

section Text

@[simp] theorem replaceChar_nil (c : Char) (r : List Char) : replaceChar c r [] = [] := rfl

theorem replaceChar_append (c : Char) (r a b : List Char) :
    replaceChar c r (a ++ b) = replaceChar c r a ++ replaceChar c r b := by
  simp [replaceChar]

theorem replaceChar_cons (c : Char) (r : List Char) (x : Char) (s : List Char) :
    replaceChar c r (x :: s) = (if x = c then r else [x]) ++ replaceChar c r s := by
  simp [replaceChar]

theorem replaceChar_of_not_mem {c : Char} (r : List Char) {s : List Char} (h : c ∉ s) :
    replaceChar c r s = s := by
  induction s with
  | nil => rfl
  | cons x s ih =>
      simp only [List.mem_cons, not_or] at h
      simp [replaceChar_cons, Ne.symm h.1, ih h.2]

theorem replaceChar_self (c : Char) (s : List Char) : replaceChar c [c] s = s := by
  induction s with
  | nil => rfl
  | cons x s ih => by_cases hx : x = c <;> simp [replaceChar_cons, hx, ih]

theorem replaceChar_replaceChar (c : Char) (r r' s : List Char) :
    replaceChar c r (replaceChar c r' s) = replaceChar c (replaceChar c r r') s := by
  induction s with
  | nil => rfl
  | cons x s ih => by_cases hx : x = c <;> simp [replaceChar_cons, replaceChar_append, hx, ih]

-- Indenting once more adds four spaces behind every line break.
theorem replaceChar_indent (k : Nat) (s : List Char) :
    replaceChar '\n' (breakAt k) (indent s) = replaceChar '\n' (breakAt (k + 1)) s := by
  have hsp : replaceChar '\n' (breakAt k) (List.replicate 4 ' ') = List.replicate 4 ' ' :=
    replaceChar_of_not_mem _ (by decide)
  rw [indent, replaceChar_replaceChar]
  congr 1
  simp [breakAt, replaceChar_cons, hsp, Nat.mul_add, List.replicate_add]

theorem intercalate_cons_eq (sep a : List Char) (rest : List (List Char)) :
    sep.intercalate (a :: rest) = a ++ rest.flatMap (sep ++ ·) := by
  induction rest generalizing a with
  | nil => simp [List.intercalate]
  | cons b rest ih =>
      have := ih b
      simp only [List.intercalate, List.intersperse_cons_cons, List.flatten_cons] at this ⊢
      simp [this]

theorem joinChildren_eq (p : List Char) (nextStrings : List (List Char)) :
    joinChildren p nextStrings = nextStrings.flatMap (p ++ ·) := by
  cases nextStrings with
  | nil => rfl
  | cons s rest => simp [joinChildren, intercalate_cons_eq]

theorem newline_not_mem_fileConnector (out : Bool) : '\n' ∉ fileConnector out := by
  cases out <;> decide

theorem newline_not_mem_commandConnector (out : Bool) : '\n' ∉ commandConnector out := by
  cases out <;> decide

theorem newline_not_mem_connector (parent : Parent) : '\n' ∉ parent.connector := by
  cases parent with
  | root => simp [Parent.connector]
  | file out => exact newline_not_mem_fileConnector out
  | command out => exact newline_not_mem_commandConnector out

theorem flatMap_newline (bs : List (List Char)) (h : bs ≠ []) :
    bs.flatMap ('\n' :: ·) = '\n' :: ['\n'].intercalate bs := by
  obtain ⟨b, bs, rfl⟩ := List.exists_cons_of_ne_nil h
  simp [intercalate_cons_eq]

end Text

theorem FileDependency.lines_ne_nil (quoteArgs : List String → List String) (depth : Nat)
    (parent : Parent) (f : FileDependency) : f.lines quoteArgs depth parent ≠ [] := by
  cases f; simp [FileDependency.lines]

theorem CommandDependency.lines_ne_nil (quoteArgs : List String → List String) (depth : Nat)
    (parent : Parent) (c : CommandDependency) : c.lines quoteArgs depth parent ≠ [] := by
  cases c; simp [CommandDependency.lines]

section Blocks

variable (quoteArgs : List String → List String)

-- Read at `depth` below `parent`, the blocks of a subtree joined by line breaks are the
-- subtree's text, indented as its ancestors' `replace` calls indent it, behind its connector.
mutual
theorem FileDependency.blocks_eq : ∀ (f : FileDependency) (depth : Nat) (parent : Parent),
    ['\n'].intercalate ((f.lines quoteArgs depth parent).map Line.block) =
      List.replicate (4 * (depth - 1)) ' ' ++ parent.connector ++
        replaceChar '\n' (breakAt depth) (f.str quoteArgs)
  | .mk file digest out next, depth, parent => by
      have := CommandDependency.blocksList_eq next depth out
      simp only [FileDependency.lines, FileDependency.str, List.map_cons, intercalate_cons_eq,
        Line.block, joinChildren_eq, replaceChar_append, List.append_assoc]
      simp only [List.singleton_append, this]
theorem CommandDependency.blocksList_eq :
    ∀ (cs : List CommandDependency) (depth : Nat) (out : Bool),
    ((CommandDependency.linesList quoteArgs (depth + 1) (.file out) cs).map Line.block).flatMap
        ('\n' :: ·) =
      replaceChar '\n' (breakAt depth)
        ((CommandDependency.strList quoteArgs cs).flatMap (('\n' :: fileConnector out) ++ ·))
  | [], _, _ => rfl
  | c :: cs, depth, out => by
      have hne : (c.lines quoteArgs (depth + 1) (.file out)).map Line.block ≠ [] := by
        simpa using c.lines_ne_nil quoteArgs _ _
      rw [CommandDependency.linesList, CommandDependency.strList, List.map_append,
        List.flatMap_append, flatMap_newline _ hne,
        CommandDependency.blocks_eq c (depth + 1) (.file out),
        CommandDependency.blocksList_eq cs depth out, List.flatMap_cons, replaceChar_append,
        replaceChar_append, replaceChar_indent]
      simp [breakAt, Parent.connector, replaceChar_cons,
        replaceChar_of_not_mem _ (newline_not_mem_fileConnector out)]
theorem CommandDependency.blocks_eq : ∀ (c : CommandDependency) (depth : Nat) (parent : Parent),
    ['\n'].intercalate ((c.lines quoteArgs depth parent).map Line.block) =
      List.replicate (4 * (depth - 1)) ' ' ++ parent.connector ++
        replaceChar '\n' (breakAt depth) (c.str quoteArgs)
  | .mk command out next, depth, parent => by
      have := FileDependency.blocksList_eq next depth out
      simp only [CommandDependency.lines, CommandDependency.str, List.map_cons, intercalate_cons_eq,
        Line.block, joinChildren_eq, replaceChar_append, List.append_assoc]
      simp only [List.singleton_append, this]
theorem FileDependency.blocksList_eq : ∀ (fs : List FileDependency) (depth : Nat) (out : Bool),
    ((FileDependency.linesList quoteArgs (depth + 1) (.command out) fs).map Line.block).flatMap
        ('\n' :: ·) =
      replaceChar '\n' (breakAt depth)
        ((FileDependency.strList quoteArgs fs).flatMap (('\n' :: commandConnector out) ++ ·))
  | [], _, _ => rfl
  | f :: fs, depth, out => by
      have hne : (f.lines quoteArgs (depth + 1) (.command out)).map Line.block ≠ [] := by
        simpa using f.lines_ne_nil quoteArgs _ _
      rw [FileDependency.linesList, FileDependency.strList, List.map_append,
        List.flatMap_append, flatMap_newline _ hne,
        FileDependency.blocks_eq f (depth + 1) (.command out),
        FileDependency.blocksList_eq fs depth out, List.flatMap_cons, replaceChar_append,
        replaceChar_append, replaceChar_indent]
      simp [breakAt, Parent.connector, replaceChar_cons,
        replaceChar_of_not_mem _ (newline_not_mem_commandConnector out)]
end

theorem newline_not_mem_block {l : Line} (h : '\n' ∉ l.label) : '\n' ∉ l.block := by
  simp only [Line.block, replaceChar_of_not_mem _ h, List.mem_append, not_or]
  exact ⟨⟨fun hm => by simp at hm, newline_not_mem_connector _⟩, h⟩

-- Split at its line breaks, the join of blocks that hold none gives the blocks back.
theorem splitOn_blocks {ls : List Line} (hne : ls ≠ []) (h : ∀ l ∈ ls, '\n' ∉ l.label) :
    (['\n'].intercalate (ls.map Line.block)).splitOn '\n' = ls.map Line.block :=
  List.splitOn_intercalate _ '\n' (by simpa using fun l hl => newline_not_mem_block (h l hl))
    (by simpa using hne)

end Blocks

-- A tree prints as the blocks of its nodes in preorder, joined by line breaks; when no label
-- holds a line break, its lines are exactly those blocks, one for each node.
theorem str_eq_preorder_blocks (quoteArgs : List String → List String) :
    (∀ f : FileDependency,
      f.str quoteArgs = ['\n'].intercalate ((f.lines quoteArgs 0 .root).map Line.block) ∧
      ((∀ l ∈ f.lines quoteArgs 0 .root, '\n' ∉ l.label) →
        (f.str quoteArgs).splitOn '\n' = (f.lines quoteArgs 0 .root).map Line.block)) ∧
    (∀ c : CommandDependency,
      c.str quoteArgs = ['\n'].intercalate ((c.lines quoteArgs 0 .root).map Line.block) ∧
      ((∀ l ∈ c.lines quoteArgs 0 .root, '\n' ∉ l.label) →
        (c.str quoteArgs).splitOn '\n' = (c.lines quoteArgs 0 .root).map Line.block)) := by
  have hroot : breakAt 0 = ['\n'] := rfl
  constructor
  · intro f
    have h : f.str quoteArgs = ['\n'].intercalate ((f.lines quoteArgs 0 .root).map Line.block) := by
      simp [FileDependency.blocks_eq, Parent.connector, hroot, replaceChar_self]
    exact ⟨h, fun hl => h ▸ splitOn_blocks (f.lines_ne_nil _ _ _) hl⟩
  · intro c
    have h : c.str quoteArgs = ['\n'].intercalate ((c.lines quoteArgs 0 .root).map Line.block) := by
      simp [CommandDependency.blocks_eq, Parent.connector, hroot, replaceChar_self]
    exact ⟨h, fun hl => h ▸ splitOn_blocks (c.lines_ne_nil _ _ _) hl⟩

section Fans

-- The entries `print_fanout` is given: a command and what follows it, printed only when it is a
-- list (`isinstance(next, List)`).
inductive Fan where
  | mk (command : CommandLog) (next : Option (List Fan))

-- `CommandInspector.__print_fans(writer, fans, fanout, indent)`, as the text it writes.
-- `fanout` is passed on and never read.
mutual
def printFans (quoteArgs : List String → List String) (fanout : Bool) (indent : List Char) :
    List Fan → List Char
  | [] => []
  | .mk command next :: fans =>
      indent ++ cmdString quoteArgs command ++ ['\n'] ++
        printNext quoteArgs fanout (indent ++ [' ', ' ']) next ++
        printFans quoteArgs fanout indent fans
def printNext (quoteArgs : List String → List String) (fanout : Bool) (indent : List Char) :
    Option (List Fan) → List Char
  | none => []
  | some fans => printFans quoteArgs fanout indent fans
end

-- `CommandInspector.print_fanout(writer, fanout)`
def printFanout (quoteArgs : List String → List String) (fanout : List Fan) : List Char :=
  printFans quoteArgs true [] fanout

-- The commands `__print_fans` reaches, in preorder, with their depth.
mutual
def Fan.preorder (depth : Nat) : List Fan → List (Nat × CommandLog)
  | [] => []
  | .mk command next :: fans =>
      (depth, command) :: Fan.preorderNext (depth + 1) next ++ Fan.preorder depth fans
def Fan.preorderNext (depth : Nat) : Option (List Fan) → List (Nat × CommandLog)
  | none => []
  | some fans => Fan.preorder depth fans
end

-- The line of a command at `depth`: the first indent, two spaces a level, the command.
def fanLine (quoteArgs : List String → List String) (indent : List Char)
    (entry : Nat × CommandLog) : List Char :=
  indent ++ List.replicate (2 * entry.1) ' ' ++ cmdString quoteArgs entry.2

mutual
theorem printFans_eq (quoteArgs : List String → List String) (fanout : Bool)
    (indent : List Char) : ∀ (depth : Nat) (fans : List Fan),
      printFans quoteArgs fanout (indent ++ List.replicate (2 * depth) ' ') fans =
        (Fan.preorder depth fans).flatMap (fanLine quoteArgs indent · ++ ['\n'])
  | _, [] => by simp [printFans, Fan.preorder]
  | depth, .mk command next :: fans => by
      have h := printNext_eq quoteArgs fanout indent (depth + 1) next
      rw [show 2 * (depth + 1) = 2 * depth + 2 by ring, List.replicate_add,
        show List.replicate 2 ' ' = [' ', ' '] from rfl] at h
      simp [printFans, Fan.preorder, fanLine, printFans_eq quoteArgs fanout indent depth fans, h]
theorem printNext_eq (quoteArgs : List String → List String) (fanout : Bool)
    (indent : List Char) : ∀ (depth : Nat) (next : Option (List Fan)),
      printNext quoteArgs fanout (indent ++ List.replicate (2 * depth) ' ') next =
        (Fan.preorderNext depth next).flatMap (fanLine quoteArgs indent · ++ ['\n'])
  | _, none => by simp [printNext, Fan.preorderNext]
  | depth, some fans => by
      simpa [printNext, Fan.preorderNext] using printFans_eq quoteArgs fanout indent depth fans
end

-- Split at its line breaks, lines that hold none, each ended by one, come back with an empty
-- last piece.
theorem splitOn_flatMap_newline :
    ∀ {ls : List (List Char)}, (∀ l ∈ ls, '\n' ∉ l) →
      (ls.flatMap (· ++ ['\n'])).splitOn '\n' = ls ++ [[]]
  | [], _ => rfl
  | l :: ls, h => by
      have ih := splitOn_flatMap_newline fun x hx => h x (List.mem_cons_of_mem _ hx)
      rw [List.flatMap_cons, List.append_assoc, List.singleton_append]
      unfold List.splitOn at ih ⊢
      have hl : ∀ x ∈ l, ¬(x == '\n') = true := fun x hx => by
        simpa using ne_of_mem_of_not_mem hx (h l (by simp))
      rw [List.splitOnP_first _ l hl '\n' (by simp), ih, List.cons_append]

-- `__print_fans` writes one line for each command it reaches through the list links, in
-- preorder, indented by two spaces a level; `fanout` changes nothing. When neither the indent
-- nor any command string holds a line break, the lines of the text are exactly these.
theorem print_fans_lines (quoteArgs : List String → List String) (fanout : Bool)
    (indent : List Char) (fans : List Fan) (hindent : '\n' ∉ indent)
    (hcmds : ∀ e ∈ Fan.preorder 0 fans, '\n' ∉ cmdString quoteArgs e.2) :
    (printFans quoteArgs fanout indent fans).splitOn '\n' =
      (Fan.preorder 0 fans).map (fanLine quoteArgs indent) ++ [[]] := by
  have h := printFans_eq quoteArgs fanout indent 0 fans
  rw [Nat.mul_zero, List.replicate_zero, List.append_nil] at h
  rw [h, ← List.flatMap_map (fanLine quoteArgs indent) (· ++ ['\n']),
    splitOn_flatMap_newline]
  simp only [List.mem_map, forall_exists_index, and_imp, forall_apply_eq_imp_iff₂]
  intro e he
  simp [fanLine, hindent, hcmds e he]

theorem print_fans_lines_cat :
    '\n' ∉ ([] : List Char) ∧
      (∀ e ∈ Fan.preorder 0 [.mk (CommandLog.new ["cat", "a.txt"]) (some
          [.mk (CommandLog.new ["wc"]) none])], '\n' ∉ cmdString id e.2) ∧
      (printFans id true [] [.mk (CommandLog.new ["cat", "a.txt"]) (some
          [.mk (CommandLog.new ["wc"]) none])]).splitOn '\n' =
        (Fan.preorder 0 [.mk (CommandLog.new ["cat", "a.txt"]) (some
          [.mk (CommandLog.new ["wc"]) none])]).map (fanLine id []) ++ [[]] := by
  have hcmds : ∀ e ∈ Fan.preorder 0 [.mk (CommandLog.new ["cat", "a.txt"]) (some
      [.mk (CommandLog.new ["wc"]) none])], '\n' ∉ cmdString id e.2 := by
    simp only [Fan.preorder, Fan.preorderNext, List.nil_append, List.singleton_append]
    decide
  exact ⟨List.not_mem_nil _, hcmds, print_fans_lines id true [] _ (List.not_mem_nil _) hcmds⟩

end Fans

end CincanCommand.Inspector
