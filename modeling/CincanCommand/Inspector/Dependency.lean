import CincanCommand.CommandLog

namespace CincanCommand.Inspector

-- The two node kinds of a provenance tree. They alternate by construction: a file node holds
-- command nodes and a command node holds file nodes.
mutual
inductive FileDependency where
  | mk (file : Path) (digest : String) (out : Bool) (next : List CommandDependency)
inductive CommandDependency where
  | mk (command : CommandLog) (out : Bool) (next : List FileDependency)
end

namespace FileDependency

def file : FileDependency → Path
  | mk file _ _ _ => file

def digest : FileDependency → String
  | mk _ digest _ _ => digest

def out : FileDependency → Bool
  | mk _ _ out _ => out

def next : FileDependency → List CommandDependency
  | mk _ _ _ next => next

@[simp] theorem file_mk (f d o n) : (mk f d o n).file = f := rfl
@[simp] theorem digest_mk (f d o n) : (mk f d o n).digest = d := rfl
@[simp] theorem out_mk (f d o n) : (mk f d o n).out = o := rfl
@[simp] theorem next_mk (f d o n) : (mk f d o n).next = n := rfl

end FileDependency

namespace CommandDependency

def command : CommandDependency → CommandLog
  | mk command _ _ => command

def out : CommandDependency → Bool
  | mk _ out _ => out

def next : CommandDependency → List FileDependency
  | mk _ _ next => next

@[simp] theorem command_mk (c o n) : (mk c o n).command = c := rfl
@[simp] theorem out_mk (c o n) : (mk c o n).out = o := rfl
@[simp] theorem next_mk (c o n) : (mk c o n).next = n := rfl

end CommandDependency

-- The file nodes of a tree in preorder.
mutual
def FileDependency.fileNodes : FileDependency → List FileDependency
  | .mk file digest out next => .mk file digest out next :: CommandDependency.fileNodesList next
def CommandDependency.fileNodesList : List CommandDependency → List FileDependency
  | [] => []
  | c :: cs => c.fileNodes ++ CommandDependency.fileNodesList cs
def CommandDependency.fileNodes : CommandDependency → List FileDependency
  | .mk _ _ next => FileDependency.fileNodesList next
def FileDependency.fileNodesList : List FileDependency → List FileDependency
  | [] => []
  | f :: fs => f.fileNodes ++ FileDependency.fileNodesList fs
end

-- Every file node with its path replaced, as `FileDependency(self.__work_path(file), ...)`
-- shows the path a node was reached by.
mutual
def FileDependency.mapFile (display : Path → Path) : FileDependency → FileDependency
  | .mk file digest out next =>
    .mk (display file) digest out (CommandDependency.mapFileList display next)
def CommandDependency.mapFileList (display : Path → Path) :
    List CommandDependency → List CommandDependency
  | [] => []
  | c :: cs => c.mapFile display :: CommandDependency.mapFileList display cs
def CommandDependency.mapFile (display : Path → Path) : CommandDependency → CommandDependency
  | .mk command out next => .mk command out (FileDependency.mapFileList display next)
def FileDependency.mapFileList (display : Path → Path) :
    List FileDependency → List FileDependency
  | [] => []
  | f :: fs => f.mapFile display :: FileDependency.mapFileList display fs
end

theorem FileDependency.fileNodesList_eq (fs : List FileDependency) :
    FileDependency.fileNodesList fs = fs.flatMap FileDependency.fileNodes := by
  induction fs with
  | nil => rfl
  | cons f fs ih => simp [FileDependency.fileNodesList, ih]

theorem CommandDependency.fileNodesList_eq (cs : List CommandDependency) :
    CommandDependency.fileNodesList cs = cs.flatMap CommandDependency.fileNodes := by
  induction cs with
  | nil => rfl
  | cons c cs ih => simp [CommandDependency.fileNodesList, ih]

theorem FileDependency.fileNodes_eq (f : FileDependency) :
    f.fileNodes = f :: f.next.flatMap CommandDependency.fileNodes := by
  cases f; simp [FileDependency.fileNodes, CommandDependency.fileNodesList_eq]

theorem CommandDependency.fileNodes_eq (c : CommandDependency) :
    c.fileNodes = c.next.flatMap FileDependency.fileNodes := by
  cases c; simp [CommandDependency.fileNodes, FileDependency.fileNodesList_eq]

theorem FileDependency.mapFileList_eq (display : Path → Path) (fs : List FileDependency) :
    FileDependency.mapFileList display fs = fs.map (FileDependency.mapFile display) := by
  induction fs with
  | nil => rfl
  | cons f fs ih => simp [FileDependency.mapFileList, ih]

theorem CommandDependency.mapFileList_eq (display : Path → Path) (cs : List CommandDependency) :
    CommandDependency.mapFileList display cs = cs.map (CommandDependency.mapFile display) := by
  induction cs with
  | nil => rfl
  | cons c cs ih => simp [CommandDependency.mapFileList, ih]

@[simp] theorem FileDependency.mapFile_mk (display : Path → Path) (f d o n) :
    (FileDependency.mk f d o n).mapFile display =
      .mk (display f) d o (n.map (CommandDependency.mapFile display)) := by
  simp [FileDependency.mapFile, CommandDependency.mapFileList_eq]

@[simp] theorem CommandDependency.mapFile_mk (display : Path → Path) (c o n) :
    (CommandDependency.mk c o n).mapFile display =
      .mk c o (n.map (FileDependency.mapFile display)) := by
  simp [CommandDependency.mapFile, FileDependency.mapFileList_eq]

@[simp] theorem FileDependency.digest_mapFile (display : Path → Path) (f : FileDependency) :
    (f.mapFile display).digest = f.digest := by
  cases f; rfl

@[simp] theorem FileDependency.next_mapFile (display : Path → Path) (f : FileDependency) :
    (f.mapFile display).next = f.next.map (CommandDependency.mapFile display) := by
  cases f; simp

@[simp] theorem CommandDependency.command_mapFile (display : Path → Path)
    (c : CommandDependency) :
    (c.mapFile display).command = c.command := by
  cases c; rfl

@[simp] theorem CommandDependency.next_mapFile (display : Path → Path) (c : CommandDependency) :
    (c.mapFile display).next = c.next.map (FileDependency.mapFile display) := by
  cases c; simp

-- Mapping the paths maps the preorder.
mutual
theorem FileDependency.fileNodes_mapFile (display : Path → Path) :
    ∀ f : FileDependency, (f.mapFile display).fileNodes = f.fileNodes.map (·.mapFile display)
  | .mk file digest out next => by
      have := CommandDependency.fileNodesList_mapFile display next
      simp_all [FileDependency.fileNodes, CommandDependency.mapFileList_eq]
theorem CommandDependency.fileNodesList_mapFile (display : Path → Path) :
    ∀ cs : List CommandDependency, CommandDependency.fileNodesList (cs.map (·.mapFile display)) =
      (CommandDependency.fileNodesList cs).map (·.mapFile display)
  | [] => rfl
  | c :: cs => by
      have h1 := CommandDependency.fileNodes_mapFile display c
      have h2 := CommandDependency.fileNodesList_mapFile display cs
      simp_all [CommandDependency.fileNodesList]
theorem CommandDependency.fileNodes_mapFile (display : Path → Path) :
    ∀ c : CommandDependency, (c.mapFile display).fileNodes = c.fileNodes.map (·.mapFile display)
  | .mk command out next => by
      have := FileDependency.fileNodesList_mapFile display next
      simp_all [CommandDependency.fileNodes, FileDependency.mapFileList_eq]
theorem FileDependency.fileNodesList_mapFile (display : Path → Path) :
    ∀ fs : List FileDependency, FileDependency.fileNodesList (fs.map (·.mapFile display)) =
      (FileDependency.fileNodesList fs).map (·.mapFile display)
  | [] => rfl
  | f :: fs => by
      have h1 := FileDependency.fileNodes_mapFile display f
      have h2 := FileDependency.fileNodesList_mapFile display fs
      simp_all [FileDependency.fileNodesList]
end

end CincanCommand.Inspector
