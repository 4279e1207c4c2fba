import PhraseArithmetic.Proofs.Launch.Arguments
import PhraseArithmetic.Proofs.Launch.Starting
import PhraseArithmetic.Proofs.Scanning.Numerals

/-!
# The listen address

The address of the command line comes before that of the settings file, and that one before the
default. It decides whether a run serves or what it is ended for, and nothing of what it logs.
-/
namespace PhraseArithmetic.Launch

/-- Decimal digits that come to less than `2 ^ 16`, with an optional plus sign. -/
inductive IsPort : List Char → Prop where
  | unsigned {digits : List Char} {n : Nat} (h : Text.SpellsNatural digits n) (hn : n < 65536) :
      IsPort digits
  | plus {digits : List Char} {n : Nat} (h : Text.SpellsNatural digits n) (hn : n < 65536) :
      IsPort ('+' :: digits)

theorem unsigned?_of_head? {bits : Nat} {text : List Char} (h : text.head? ≠ some '+') :
    Text.unsigned? bits text =
      (Text.natural? text).bind fun n => if n < Nat.pow 2 bits then some n else none := by
  cases text with
  | nil => rfl
  | cons c text =>
    have hc : c ≠ '+' := by
      rintro rfl
      exact h rfl
    rw [Text.unsigned?.eq_def]
    split
    · next heq => exact absurd (List.cons.inj heq).1 hc
    · rfl

theorem isSome_unsigned?_iff {text : List Char} :
    (Text.unsigned? 16 text).isSome = true ↔ IsPort text := by
  have hdigits (digits : List Char) : ((Text.natural? digits).bind fun n =>
      if n < Nat.pow 2 16 then some n else none).isSome = true ↔
        ∃ n, Text.SpellsNatural digits n ∧ n < 65536 := by
    simp [Option.isSome_iff_exists, Option.bind_eq_some_iff, Text.natural?_eq_some_iff_spells]
  by_cases hplus : text.head? = some '+'
  · obtain ⟨digits, rfl⟩ := List.head?_eq_some_iff.1 hplus
    refine (hdigits digits).trans ⟨fun ⟨n, h, hn⟩ => .plus h hn, fun h => ?_⟩
    cases h with
    | unsigned h hn => exact absurd (h.head?_isDigit rfl) (by decide)
    | plus h hn => exact ⟨_, h, hn⟩
  · rw [unsigned?_of_head? hplus, hdigits]
    refine ⟨fun ⟨n, h, hn⟩ => .unsigned h hn, fun h => ?_⟩
    cases h with
    | unsigned h hn => exact ⟨_, h, hn⟩
    | plus h hn => exact absurd rfl hplus

namespace AddressFault
variable {address : String}

theorem of?_of_notMem (h : ':' ∉ address.toList) : of? address = some .noColon := by
  simp [of?, h]

/-- The last colon of an address stands in front of its port. -/
theorem of?_of_split {host port : List Char} (h : address.toList = host ++ ':' :: port)
    (hport : ':' ∉ port) :
    of? address = if (Text.unsigned? 16 port).isNone then some .port else none := by
  have hcolon : ':' ∈ address.toList := by simp [h]
  have hlast : (address.toList.reverse.takeWhile (· ≠ ':')).reverse = port := by
    rw [h, List.reverse_append, List.reverse_cons, List.append_assoc,
      List.takeWhile_append_of_pos]
    · simp
    · intro c hc
      have hc : c ∈ port := List.mem_reverse.1 hc
      exact decide_eq_true fun heq => hport (heq ▸ hc)
  simp only [of?, List.contains_eq_mem, hcolon, hlast]
  rfl

theorem of?_of_isPort {host port : List Char} (h : address.toList = host ++ ':' :: port)
    (hcolon : ':' ∉ port) (hport : IsPort port) : of? address = none := by
  have hsome := isSome_unsigned?_iff.2 hport
  rw [of?_of_split h hcolon, if_neg]
  simp [← Option.not_isSome, hsome]

theorem of?_of_not_isPort {host port : List Char} (h : address.toList = host ++ ':' :: port)
    (hcolon : ':' ∉ port) (hport : ¬IsPort port) : of? address = some .port := by
  have hnone := mt isSome_unsigned?_iff.1 hport
  rw [of?_of_split h hcolon, if_pos]
  simpa using hnone

end AddressFault

/-- The settings with another listen address. -/
def withAddress (settings : Settings) (address : String) : Settings :=
  { settings with server := { settings.server with listenAddr := address } }

/-- How a run ends is told by the address that it binds, with its other settings and the lines that
it has written by then. -/
structure Binds (address : String) (loaded : Settings) (output complaints : List String)
    (o : Outcome) : Prop where
  noColon : ':' ∉ address.toList →
    o = .exited 1 output (complaints ++ (lines s!"Error: binding {address}" ++
      ["", "Caused by:", "    invalid socket address"]))
  badPort : ∀ host port, address.toList = host ++ ':' :: port → ':' ∉ port → ¬IsPort port →
    o = .exited 1 output (complaints ++ (lines s!"Error: binding {address}" ++
      ["", "Caused by:", "    invalid port value"]))
  serves : ∀ host port, address.toList = host ++ ':' :: port → ':' ∉ port → IsPort port →
    o = .serving (withAddress loaded address) output complaints
  /-- An address that fits a line is named on one. -/
  named : '\n' ∉ address.toList → address.toList.getLast? ≠ some '\r' →
    lines s!"Error: binding {address}" = [s!"Error: binding {address}"]

theorem bindReport_eq (address : String) (f : AddressFault) : bindReport address f =
    lines s!"Error: binding {address}" ++ ["", "Caused by:", "    " ++ f.message] := by
  have hbinding : s!"Error: {AddressFault.activity address}" = s!"Error: binding {address}" :=
    String.append_assoc.symm
  have hnewline : "\n\nCaused by:\n    " ++ f.message =
      "\n" ++ ("\nCaused by:\n    " ++ f.message) := by cases f <;> decide
  have hcause : lines ("\nCaused by:\n    " ++ f.message) =
      ["", "Caused by:", "    " ++ f.message] := by cases f <;> decide
  rw [← hcause, ← lines_append_newline, ← hnewline, bindReport, hbinding, String.append_assoc]
  rfl

theorem ofSettings_of_fault {settings : Settings} {f : AddressFault}
    (h : AddressFault.of? settings.server.listenAddr = some f) (output complaints : List String) :
    Outcome.ofSettings settings output complaints = .exited 1 output (complaints ++
      (lines s!"Error: binding {settings.server.listenAddr}" ++
        ["", "Caused by:", "    " ++ f.message])) := by
  rw [Outcome.ofSettings, h, ← bindReport_eq]

theorem binds_ofSettings (address : String) (loaded : Settings) (output complaints : List String) :
    Binds address loaded output complaints
      (.ofSettings (withAddress loaded address) output complaints) where
  noColon h := ofSettings_of_fault (AddressFault.of?_of_notMem h) output complaints
  badPort host port h hcolon hport :=
    ofSettings_of_fault (AddressFault.of?_of_not_isPort h hcolon hport) output complaints
  serves host port h hcolon hport := by
    have hproper : AddressFault.of? (withAddress loaded address).server.listenAddr = none :=
      AddressFault.of?_of_isPort h hcolon hport
    rw [Outcome.ofSettings, hproper]
  named hnewline hreturn := by
    have htext : s!"Error: binding {address}".toList =
        "Error: binding ".toList ++ address.toList := String.toList_append ..
    refine lines_eq_singleton ?_ ?_
    · rw [htext]
      simp [hnewline]
    · rw [htext, List.getLast?_append]
      cases hlast : address.toList.getLast? with
      | none => simp
      | some c => simpa [hlast] using hreturn

/-- The address of the command line, else the one of a loaded file, else the default one. -/
def addressInForce (listen : Option String) (file : Except ReadFault ByteArray) : String :=
  match listen, Settings.read file with
  | some address, _ => address
  | none, .ok loaded => loaded.server.listenAddr
  | none, .error _ => "0.0.0.0:8080"

theorem effective_eq (given : Given) (file : Except ReadFault ByteArray) :
    effective given (Settings.load file).1 =
      withAddress (Settings.load file).1 (addressInForce given.listen file) := by
  obtain ⟨config, listen⟩ := given
  rw [Settings.load]
  cases listen with
  | some address => rfl
  | none =>
    cases hread : Settings.read file with
    | ok loaded => simp [effective, addressInForce, withAddress, hread]
    | error f => simp [effective, addressInForce, withAddress, hread]; rfl

theorem Spells.run_eq {given : Given} {arguments : List String} (h : Spells given arguments)
    (files : String → Except ReadFault ByteArray) : run arguments files =
      .ofSettings (withAddress (Settings.load (files (settingsPath given))).1
          (addressInForce given.listen (files (settingsPath given))))
        (logOf (settingsPath given) (files (settingsPath given)))
        (complaintsOf (files (settingsPath given))) := by
  rw [run_eq_start h.ofArguments_eq, start_eq, effective_eq]

/-- What a run does with a command line that gives the flags these values, and with these octets at
the path of its settings file. -/
structure Listens (given : Given) (arguments : List String)
    (files : String → Except ReadFault ByteArray) (path : String)
    (file : Except ReadFault ByteArray) : Prop where
  binds : Binds (addressInForce given.listen file) (Settings.load file).1 (logOf path file)
    (complaintsOf file) (run arguments files)
  /-- The order and the forms do not matter. -/
  respelled : ∀ arguments', Spells given arguments' → run arguments' files = run arguments files
  /-- No listen address changes what is logged. -/
  readdressed : ∀ listen arguments', Spells ⟨given.config, listen⟩ arguments' →
    (run arguments' files).output = (run arguments files).output
  /-- Where there is one on the command line, the one in the file does not matter. -/
  overridden : given.listen.isSome = true → ∀ loaded address files',
    Settings.read file = .ok loaded →
      Settings.read (files' path) = .ok (withAddress loaded address) →
        run arguments files' = run arguments files

/-- The address on the command line wins over that of the file, and that one over the default, and
nothing else depends on where the address came from. -/
theorem listens_at_address_in_force {given : Given} {arguments : List String}
    (h : Spells given arguments) (files : String → Except ReadFault ByteArray) :
    Listens given arguments files (given.config.getD "/etc/wordcalc/config.toml")
      (files (given.config.getD "/etc/wordcalc/config.toml")) where
  binds := by
    rw [h.run_eq]
    exact binds_ofSettings _ _ _ _
  respelled arguments' h' := by rw [h.run_eq, h'.run_eq]
  readdressed listen arguments' h' := by
    rw [h.run_eq, h'.run_eq, Outcome.output_ofSettings, Outcome.output_ofSettings]
    rfl
  overridden hlisten loaded address files' hread hread' := by
    obtain ⟨listen, hlisten⟩ := Option.isSome_iff_exists.1 hlisten
    have hload : Settings.load (files (settingsPath given)) = (loaded, none) :=
      Settings.load_loaded hread
    have hload' : Settings.load (files' (settingsPath given)) =
        (withAddress loaded address, none) := Settings.load_loaded hread'
    rw [h.run_eq, h.run_eq, logOf, logOf, complaintsOf, complaintsOf, hload, hload', hlisten]
    rfl

/-- A port beyond the last one, in one spelling and in another, and with two files in which only
the listen address differs. -/
theorem largePort_refused_either_way :
    Spells ⟨some "w", some "b:65536"⟩ ["--config", "w", "--listen=b:65536"] ∧
      run ["--config", "w", "--listen=b:65536"] (fun _ => .error .absent) = .exited 1
        ["INFO wordcalcd: wordcalcd v0.1.0 starting",
          "WARN wordcalcd: Config not loaded, using defaults: " ++
            "reading w: No such file or directory (os error 2)"]
        ["Error: binding b:65536", "", "Caused by:", "    invalid port value"] ∧
      run ["--listen", "b:65536", "--config=w"] (fun _ => .error .absent) =
        run ["--config", "w", "--listen=b:65536"] (fun _ => .error .absent) ∧
      run ["--config", "w", "--listen=b:65536"] (fun _ => .ok "server = ['a:1']".toUTF8) =
        run ["--config", "w", "--listen=b:65536"] fun _ => .ok "".toUTF8 := by
  have hconfig : IsValue "w" := ⟨by decide, by decide⟩
  have hlisten : IsValue "b:65536" := ⟨by decide, by decide⟩
  have hspells : Spells ⟨some "w", some "b:65536"⟩ ["--config", "w", "--listen=b:65536"] :=
    ⟨_, _, .apart hconfig, .joined hlisten, .inl rfl⟩
  have hrespelled : Spells ⟨some "w", some "b:65536"⟩ ["--listen", "b:65536", "--config=w"] :=
    ⟨_, _, .joined hconfig, .apart hlisten, .inr rfl⟩
  have hport : ¬IsPort "65536".toList := fun h => absurd (isSome_unsigned?_iff.2 h) (by decide)
  have hempty : Settings.read (.ok "".toUTF8) = .ok .default := Settings.read_toUTF8 rfl
  have haddress : Settings.read (.ok "server = ['a:1']".toUTF8) =
      .ok (withAddress .default "a:1") := Settings.read_toUTF8 rfl
  have hlistens := listens_at_address_in_force hspells fun _ => .error .absent
  have hloaded := listens_at_address_in_force hspells fun _ => .ok "".toUTF8
  refine ⟨hspells, ?_, hlistens.respelled _ hrespelled,
    hloaded.overridden rfl _ _ _ hempty haddress⟩
  rw [hlistens.binds.badPort ['b'] "65536".toList (by decide) (by decide) hport]
  decide +kernel

end PhraseArithmetic.Launch
