import PhraseArithmetic.Launch.Run
import PhraseArithmetic.Proofs.Settings.Loading

/-!
# Starting with and without a settings file

What a run writes to its log is decided by its settings file alone, and how it ends by the settings
in force. When the file is refused, the default settings are in force, the default filter among
them; it passes the starting line and the warning.
-/
namespace PhraseArithmetic.Launch

namespace Outcome

def output : Outcome → List String
  | exited _ output _ | serving _ output _ => output

/-- The end of a run with the given settings in force, and what it has written before. -/
def ofSettings (settings : Settings) (output complaints : List String) : Outcome :=
  match AddressFault.of? settings.server.listenAddr with
  | some f => .exited 1 output (complaints ++ bindReport settings.server.listenAddr f)
  | none => .serving settings output complaints

@[simp] theorem output_ofSettings (settings : Settings) (output complaints : List String) :
    (ofSettings settings output complaints).output = output := by
  rw [ofSettings]
  split
  · rfl
  · rfl

end Outcome

/-- The log of a run with its settings file. -/
def logOf (path : String) (file : Except ReadFault ByteArray) : List String :=
  logged (Filter.parse (Settings.load file).1.logging.level) (events path (Settings.load file).2)

/-- What a run says of the filter in its settings file. -/
def complaintsOf (file : Except ReadFault ByteArray) : List String :=
  complaints (Filter.parse (Settings.load file).1.logging.level)

theorem start_eq (given : Given) (file : Except ReadFault ByteArray) :
    start given file = .ofSettings (effective given (Settings.load file).1)
      (logOf (settingsPath given) file) (complaintsOf file) := rfl

theorem run_eq_start {arguments : List String} {given : Given}
    (h : Invocation.ofArguments arguments = .ok (.run given))
    (files : String → Except ReadFault ByteArray) :
    run arguments files = start given (files (settingsPath given)) := by rw [run, h]

/-! ### Lines -/

theorem lines_append_newline (a b : String) : lines (a ++ ("\n" ++ b)) = lines a ++ lines b := by
  have htext : (a ++ ("\n" ++ b)).toList = a.toList ++ '\n' :: b.toList := by simp
  rw [lines, htext, Text.parts_append_separator, List.map_append, lines, lines]

theorem lines_eq_singleton {text : String} (h : '\n' ∉ text.toList)
    (hreturn : text.toList.getLast? ≠ some '\r') : lines text = [text] := by
  rw [lines, Text.parts_eq_singleton h, List.map_singleton, dropReturn, if_neg hreturn,
    String.ofList_toList]

theorem prefix_dropReturn {start rest : List Char} (h : '\r' ∉ start) :
    start <+: dropReturn (start ++ rest) := by
  rw [dropReturn]
  split
  · next hlast =>
    have hrest : rest ≠ [] := by
      rintro rfl
      rw [List.append_nil] at hlast
      exact h (List.mem_of_getLast? hlast)
    rw [List.dropLast_append_of_ne_nil hrest]
    exact List.prefix_append _ _
  · exact List.prefix_append _ _

/-- The first line of a text begins as the text does. -/
theorem exists_mem_lines {text : String} {start rest : List Char}
    (h : text.toList = start ++ rest) (hstart : ∀ c ∈ start, c ≠ '\n' ∧ c ≠ '\r') :
    ∃ line ∈ lines text, start <+: line.toList := by
  have hnewline : '\n' ∉ start := fun hmem => (hstart _ hmem).1 rfl
  have hreturn : '\r' ∉ start := fun hmem => (hstart _ hmem).2 rfl
  have hpart : ∃ first, start ++ first ∈ Text.parts '\n' text.toList := by
    by_cases hrest : '\n' ∈ rest
    · obtain ⟨first, further, rfl, hfirst⟩ := List.eq_append_cons_of_mem hrest
      refine ⟨first, ?_⟩
      rw [h, ← List.append_assoc, Text.parts_append_separator,
        Text.parts_eq_singleton (by simp [hnewline, hfirst])]
      simp
    · refine ⟨rest, ?_⟩
      rw [h, Text.parts_eq_singleton (by simp [hnewline, hrest])]
      simp
  obtain ⟨first, hfirst⟩ := hpart
  refine ⟨String.ofList (dropReturn (start ++ first)), List.mem_map_of_mem hfirst, ?_⟩
  rw [String.toList_ofList]
  exact prefix_dropReturn hreturn

/-! ### The default filter -/

theorem deciding?_default : (Filter.parse Settings.default.logging.level).deciding?
    programName.toList = some ⟨none, none, none, Log.Level.info.detail⟩ := by rfl

theorem passes_default (level : Log.Level) :
    (Filter.parse Settings.default.logging.level).passes programName level =
      decide (level.detail ≤ Log.Level.info.detail) := by
  rw [Filter.passes, deciding?_default]
  rfl

/-- The log of a run that uses the default settings, with the reason for it. -/
def warned (path : String) (f : LoadFault) : List String :=
  "INFO wordcalcd: wordcalcd v0.1.0 starting" ::
    lines (Log.Event.line ⟨.warn, s!"Config not loaded, using defaults: {f.message path}"⟩
      "wordcalcd")

section
variable {file : Except ReadFault ByteArray} {f : LoadFault}

/-- The default filter keeps both lines of a run that warns of its settings file. -/
theorem logOf_refused (h : Settings.read file = .error f) (path : String) :
    logOf path file = warned path f := by
  have hstarting : lines (Log.Event.line ⟨.info, s!"{programName} v{version} starting"⟩
      programName) = ["INFO wordcalcd: wordcalcd v0.1.0 starting"] := by decide
  rw [logOf, Settings.load_refused h, logged, events]
  simp only [passes_default]
  simp [Log.Level.detail, hstarting]
  rfl

theorem complaintsOf_refused (h : Settings.read file = .error f) : complaintsOf file = [] := by
  have hignored : (Filter.parse Settings.default.logging.level).ignored = [] := by rfl
  rw [complaintsOf, Settings.load_refused h, complaints, hignored, List.flatMap_nil]

end

theorem exists_mem_warned (path : String) (f : LoadFault) : ∃ line ∈ warned path f,
    "WARN wordcalcd: Config not loaded, using defaults: ".toList <+: line.toList := by
  have hescaped : "Config not loaded, using defaults: ".toList.flatMap Log.escaped =
      "Config not loaded, using defaults: ".toList := by decide
  have htext : (Log.Event.line ⟨.warn, s!"Config not loaded, using defaults: {f.message path}"⟩
      "wordcalcd").toList = "WARN wordcalcd: Config not loaded, using defaults: ".toList ++
        (f.message path).toList.flatMap Log.escaped := by
    have hself (s : String) : toString s = s := rfl
    simp only [Log.Event.line, hself, String.toList_append, String.toList_ofList,
      List.flatMap_append, hescaped]
    rfl
  obtain ⟨line, hline, hstart⟩ := exists_mem_lines htext (by simp)
  exact ⟨line, List.mem_cons_of_mem _ hline, hstart⟩

/-- A settings file is used as a whole or not at all. A run that does not use it has the default
settings, but for the address on its command line, and says so whatever level the file sets. -/
theorem loads_whole_or_warns :
    (∀ file, Settings.LoadsWhole file) ∧
      ∀ (arguments : List String) (given : Given) (files : String → Except ReadFault ByteArray)
        (f : LoadFault), Invocation.ofArguments arguments = .ok (.run given) →
          Settings.read (files (settingsPath given)) = .error f →
            run arguments files = .ofSettings
              ⟨⟨given.listen.getD "0.0.0.0:8080", 10, 65536⟩, ⟨"info"⟩⟩
              (warned (settingsPath given) f) [] ∧
            (run arguments files).output = warned (settingsPath given) f ∧
            ∃ line ∈ (run arguments files).output,
              "WARN wordcalcd: Config not loaded, using defaults: ".toList <+: line.toList := by
  refine ⟨Settings.loadsWhole, fun arguments given files f haccepted hread => ?_⟩
  have hrun : run arguments files = .ofSettings
      ⟨⟨given.listen.getD "0.0.0.0:8080", 10, 65536⟩, ⟨"info"⟩⟩
      (warned (settingsPath given) f) [] := by
    rw [run_eq_start haccepted, start_eq, logOf_refused hread, complaintsOf_refused hread,
      Settings.load_refused hread]
    rfl
  have houtput : (run arguments files).output = warned (settingsPath given) f := by
    rw [hrun, Outcome.output_ofSettings]
  exact ⟨hrun, houtput, houtput ▸ exists_mem_warned (settingsPath given) f⟩

/-- A negative number is enough to use the default settings, and to say so. -/
theorem negativeText_warned :
    Settings.load (.ok Settings.negativeText.toUTF8) = (.default, some .unacceptable) ∧
      Invocation.ofArguments ["--config=w", "--listen", "b:2"] =
        .ok (.run ⟨some "w", some "b:2"⟩) ∧
      (run ["--config=w", "--listen", "b:2"] fun _ => .ok Settings.negativeText.toUTF8).output =
        ["INFO wordcalcd: wordcalcd v0.1.0 starting",
          "WARN wordcalcd: Config not loaded, using defaults: parsing w"] := by
  obtain ⟨hloads, hwarns⟩ := loads_whole_or_warns
  have haccepted : Invocation.ofArguments ["--config=w", "--listen", "b:2"] =
      .ok (.run ⟨some "w", some "b:2"⟩) := by decide
  have hread : Settings.read (.ok Settings.negativeText.toUTF8) = .error .unacceptable :=
    Settings.read_refused Settings.hasWrongValue_negativeText.not_chooses
  have houtput := (hwarns _ _ (fun _ => .ok Settings.negativeText.toUTF8) _ haccepted hread).2.1
  exact ⟨(hloads _).wrong _ rfl Settings.hasWrongValue_negativeText, haccepted,
    houtput.trans (by decide)⟩

end PhraseArithmetic.Launch
