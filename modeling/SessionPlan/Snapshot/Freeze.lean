import SessionPlan.Snapshot.Basic

/-! A project that makes a live session again. It has no hooks, since only what runs right now can
be told. Directories are hoisted: a pane records one only where it differs from its window's, a
window only where it differs from the project's. -/
namespace SessionPlan.Snapshot

/-- The directory to record below one that is inherited. -/
def recorded (own inherited : Option String) : Option String :=
  if own = inherited then none else own

def freezePane (shells : List String) (windowDir : Option String) (index : Int) (p : LivePane) :
    Pane where
  index := index
  workingDir := recorded p.directory windowDir
  commands := p.typed shells

/-- Panes are numbered anew from the base index. -/
def freezePanes (shells : List String) (windowDir : Option String) (index : Int) :
    List LivePane → List Pane
  | [] => []
  | p :: rest =>
    freezePane shells windowDir index p :: freezePanes shells windowDir (index + 1) rest

def freezeWindow (shells : List String) (projectDir : Option String) (index paneBase : Int)
    (w : LiveWindow) : Window where
  index := index
  name := w.usableName
  workingDir := recorded w.directory projectDir
  layout := w.layout
  panes := freezePanes shells (w.directory.or projectDir) paneBase w.panes

def freezeWindows (shells : List String) (projectDir : Option String) (index paneBase : Int) :
    List LiveWindow → List Window
  | [] => []
  | w :: rest =>
    freezeWindow shells projectDir index paneBase w ::
      freezeWindows shells projectDir (index + 1) paneBase rest

/-- A session has a window, and every window has a pane; `position` counts the windows. -/
def checkPanes (position : Nat) : List LiveWindow → Except Failure Unit
  | [] => .ok ()
  | w :: rest =>
    if w.panes.isEmpty then
      reject .snapshotWindowEmpty ("windows[" ++ Text.ofNat position ++ "].panes")
    else checkPanes (position + 1) rest

def check (s : Snapshot) : Except Failure Unit :=
  if s.windows.isEmpty then reject .snapshotEmpty "windows" else checkPanes 0 s.windows

def firstWindow (s : Snapshot) : LiveWindow := s.windows.head?.getD { index := 0 }

def windowBase (s : Snapshot) : Int := s.firstWindow.index

def paneBase (s : Snapshot) : Int := (s.firstWindow.panes.head?.map LivePane.index).getD 0

/-- The project of a session that has been checked. Its numbers start where the live ones do. -/
def project (s : Snapshot) (shells : List String) : Project where
  sessionName := some s.sessionName
  workingDir := s.firstWindow.directory
  windowBaseIndex := s.windowBase
  paneBaseIndex := s.paneBase
  windows := freezeWindows shells s.firstWindow.directory s.windowBase s.paneBase s.windows

/-- Freezes a session. Panes that run one of `shells` are idle. -/
def freeze (s : Snapshot) (shells : List String) : Except Failure Project := do
  s.check
  return s.project shells

end SessionPlan.Snapshot
