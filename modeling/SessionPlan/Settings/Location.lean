import SessionPlan.Surroundings

/-! Where the settings file is. -/
namespace SessionPlan.Settings

def fileVariable : String := "TMUX_LAYOUT_CONFIG"

def configDirectory (s : Surroundings) : String := s.baseDirectory "XDG_CONFIG_HOME" "/.config"

/-- The settings file: the one that the environment names, else the usual one. -/
def location (s : Surroundings) : Except Failure String :=
  match (s.value? fileVariable).filter (!·.isEmpty) with
  | some path =>
    match Path.shownAtHome? s.home path with
    | some path => .ok path
    | none => .error (.fault .homeUnknown)
  | none => .ok (Path.shown (configDirectory s ++ "/tmux-layout/config.toml"))

end SessionPlan.Settings
