import TokioCronet.Lib.Shell
import TokioCronet.Xtask.Freshness
import TokioCronet.Xtask.GnStrings

/-!
# The exports that `xtask` prints

`print_env_for_output` prints a script to be evaluated by a shell, with paths that may hold
any character. A path stands between single quotes; a single quote in it leaves them, stands
between double quotes, and enters them again.
-/

namespace TokioCronet.Xtask

open Shell (Text Env)

/-! ## The program -/

/-- What `cfg!` says of the host. -/
structure Host where
  windows : Bool := false
  macos : Bool := false

/-- The path is UTF-8, which `to_string_lossy` leaves as it is. -/
def shellQuote (path : Text) : Text := '\'' :: Gn.replace '\'' "'\"'\"'".toList path ++ ['\'']

/-- The target is Windows. -/
def targetWindows (host : Host) (target : Option Text) : Bool :=
  target.elim host.windows fun target => contains target "windows".toList

/-- The target is macOS. -/
def targetMacos (host : Host) (target : Option Text) : Bool :=
  target.elim host.macos fun target => contains target "apple".toList

/-- The variable in which the loader looks for libraries. -/
def runtimeVariable (host : Host) (target : Option Text) : Text :=
  if targetMacos host target then "DYLD_LIBRARY_PATH".toList else "LD_LIBRARY_PATH".toList

/-- `print_env_for_output` -/
def printEnvForOutput (host : Host) (source libDir : Text) (target : Option Text) : Text :=
  if targetWindows host target then
    "set CRONET_SOURCE_DIR=".toList ++ source ++ '\n' ::
      ("set CRONET_LIB_DIR=".toList ++ libDir ++ '\n' ::
        ("set PATH=".toList ++ libDir ++ ";%PATH%\n".toList))
  else
    let runtime := runtimeVariable host target
    "export CRONET_SOURCE_DIR=".toList ++ shellQuote source ++ '\n' ::
      ("export CRONET_LIB_DIR=".toList ++ shellQuote libDir ++ '\n' ::
        ("export ".toList ++ runtime ++ '=' :: (shellQuote libDir ++
          ("$\x7b".toList ++ runtime ++ ":+:$".toList ++ runtime ++ "\x7d\n".toList))))

/-! ## Reading a path -/

variable {env : Env} {value : Text} {pending : List (Text × Text)}

/-- What is left of a quoted path, from within the quotes. -/
theorem read_replaced (path rest : Text) :
    Shell.read env ⟨.single, value, pending⟩
        (Gn.replace '\'' "'\"'\"'".toList path ++ '\'' :: rest) =
      Shell.read env ⟨.bare, value ++ path, pending⟩ rest := by
  induction path generalizing value with
  | nil =>
    rw [List.append_nil]
    rfl
  | cons c path ih =>
    rw [Gn.replace, List.flatMap_cons, ← Gn.replace, List.append_assoc]
    by_cases hc : c = '\''
    · subst hc
      rw [if_pos rfl]
      calc Shell.read env ⟨.single, value, pending⟩ ("'\"'\"'".toList ++
            (Gn.replace '\'' "'\"'\"'".toList path ++ '\'' :: rest))
          = Shell.read env ⟨.single, value ++ ['\''], pending⟩
            (Gn.replace '\'' "'\"'\"'".toList path ++ '\'' :: rest) := rfl
        _ = Shell.read env ⟨.bare, value ++ '\'' :: path, pending⟩ rest := by
          rw [ih, List.append_assoc]
          rfl
    · have hstep : Shell.State.step env ⟨.single, value, pending⟩ c =
          .next ⟨.single, value ++ [c], pending⟩ := if_neg hc
      rw [if_neg hc, List.singleton_append, Shell.read_next hstep, ih, List.append_assoc]
      rfl

/-- **A shell reads a quoted path as the path**, and goes on with what follows it. -/
theorem read_shellQuote (path rest : Text) :
    Shell.read env ⟨.bare, value, pending⟩ (shellQuote path ++ rest) =
      Shell.read env ⟨.bare, value ++ path, pending⟩ rest := by
  rw [shellQuote, List.cons_append, List.cons_append, List.append_assoc, Shell.read_next rfl]
  exact read_replaced path rest

/-- A line that exports a path. -/
theorem command_path {name : Text} (h : Shell.IsName name) (path rest : Text) :
    Shell.command env ("export ".toList ++ name ++ '=' :: (shellQuote path ++ '\n' :: rest)) =
      some (Function.update env name (some path), rest) := by
  refine Shell.command_export h ?_
  rw [read_shellQuote]
  rfl

theorem isName_runtimeVariable (host : Host) (target : Option Text) :
    Shell.IsName (runtimeVariable host target) := by
  rw [runtimeVariable]
  split_ifs
  · decide
  · decide

/-- The line that puts the library directory in front of the run-time search path. -/
theorem command_runtime {name : Text} (h : Shell.IsName name) (libDir : Text) :
    Shell.command env ("export ".toList ++ name ++ '=' :: (shellQuote libDir ++
        ("$\x7b".toList ++ name ++ ":+:$".toList ++ name ++ "\x7d\n".toList))) =
      some (Function.update env name (some (libDir ++ Shell.appended env name)), []) := by
  refine Shell.command_export h ?_
  rw [read_shellQuote, List.nil_append]
  exact Shell.read_appended h

/-- The variables after the script. -/
def exported (host : Host) (source libDir : Text) (target : Option Text) (env : Env) : Env :=
  let env := Function.update env "CRONET_SOURCE_DIR".toList (some source)
  let env := Function.update env "CRONET_LIB_DIR".toList (some libDir)
  let runtime := runtimeVariable host target
  Function.update env runtime (some (libDir ++ Shell.appended env runtime))

theorem run_printEnvForOutput {host : Host} {target : Option Text} (source libDir : Text)
    (h : targetWindows host target = false) :
    Shell.run env (printEnvForOutput host source libDir target) =
      some (exported host source libDir target env) := by
  have hsource : Shell.IsName "CRONET_SOURCE_DIR".toList := by decide
  have hlib : Shell.IsName "CRONET_LIB_DIR".toList := by decide
  have hruntime := isName_runtimeVariable host target
  obtain ⟨n, hn⟩ : ∃ n, (printEnvForOutput host source libDir target).length = n + 3 :=
    ⟨_, (Nat.sub_add_cancel (by simp [printEnvForOutput, h])).symm⟩
  rw [Shell.run, hn, printEnvForOutput, if_neg (by simp [h])]
  calc Shell.exports (n + 3) env _
      = Shell.exports (n + 2) _ _ := Shell.exports_command _ (command_path hsource source _)
    _ = Shell.exports (n + 1) _ _ := Shell.exports_command _ (command_path hlib libDir _)
    _ = Shell.exports n (exported host source libDir target env) [] :=
        Shell.exports_command _ (command_runtime hruntime libDir)
    _ = some (exported host source libDir target env) := Shell.exports_nil n

/-- **The printed paths arrive as they are.** A quoted path is read as the path wherever it
stands in the value of an assignment, and nothing behind it is taken; so whatever is set before,
the printed exports set the two directories, and no variable but these and the search path. -/
theorem exports_set_paths (host : Host) (source libDir : Text) (target : Option Text) (env : Env) :
    (∀ path value pending rest,
      Shell.read env ⟨.bare, value, pending⟩ (shellQuote path ++ rest) =
        Shell.read env ⟨.bare, value ++ path, pending⟩ rest) ∧
    (targetWindows host target = false →
      ∃ after, Shell.run env (printEnvForOutput host source libDir target) = some after ∧
        after "CRONET_SOURCE_DIR".toList = some source ∧
        after "CRONET_LIB_DIR".toList = some libDir ∧
        after (runtimeVariable host target) =
          some (libDir ++ Shell.appended env (runtimeVariable host target)) ∧
        ∀ name, name ≠ "CRONET_SOURCE_DIR".toList → name ≠ "CRONET_LIB_DIR".toList →
          name ≠ runtimeVariable host target → after name = env name) := by
  refine ⟨fun path value pending rest => read_shellQuote path rest, fun h =>
    ⟨exported host source libDir target env, run_printEnvForOutput source libDir h, ?_⟩⟩
  have hsource : "CRONET_SOURCE_DIR".toList ≠ runtimeVariable host target := by
    rw [runtimeVariable]
    split_ifs
    · decide
    · decide
  have hlib : "CRONET_LIB_DIR".toList ≠ runtimeVariable host target := by
    rw [runtimeVariable]
    split_ifs
    · decide
    · decide
  have hdirs : "CRONET_SOURCE_DIR".toList ≠ "CRONET_LIB_DIR".toList := by decide
  refine ⟨?_, ?_, ?_, fun name hne hne' hne'' => ?_⟩
  · simp only [exported, Function.update_of_ne hsource, Function.update_of_ne hdirs,
      Function.update_self]
  · simp only [exported, Function.update_of_ne hlib, Function.update_self]
  · simp only [exported, Function.update_self, Shell.appended, Function.update_of_ne hsource.symm,
      Function.update_of_ne hlib.symm]
  · simp only [exported, Function.update_of_ne hne, Function.update_of_ne hne',
      Function.update_of_ne hne'']

/-- A directory with quotes of both kinds, a substitution, a backslash and a newline. -/
def crookedPath : Text := "/it's \"$(rm)\" \\\n".toList

theorem exports_set_paths_crooked :
    ∃ after, Shell.run (fun _ => none) (printEnvForOutput {} crookedPath crookedPath none) =
        some after ∧
      after "CRONET_SOURCE_DIR".toList = some crookedPath ∧
      after "CRONET_LIB_DIR".toList = some crookedPath := by
  obtain ⟨after, hrun, hsource, hlib, -⟩ :=
    (exports_set_paths {} crookedPath crookedPath none fun _ => none).2 rfl
  exact ⟨after, hrun, hsource, hlib⟩

end TokioCronet.Xtask
