import ElevatorFleet.CommandLine
import Mathlib.Tactic.Basic

/-!
How a command line is understood.

* `Flag.awaited` is the flag that still waits for its value behind some arguments.
* An `Argument` is an argument with the part that it plays. `Argument.Understood` is the grammar:
  arguments can always be understood (`Argument.exists_understood`), and never in two ways
  (`Argument.Understood.unique`). `Argument.Causes` says which parts cause warnings.
* Where no flag waits for its value, what comes behind is understood by itself
  (`Argument.Understood.append`).
* `Options.ofParts` is what the parts set, and `Options.read_eq` says that just this is read off the
  arguments.
* `Options.arguments_compose`: the main result, about two command lines one behind the other.
-/

namespace ElevatorFleet

/-! ### Flags and their values -/

namespace Flag

/-- Whether a flag takes the next argument as its value. -/
def takesValue : Flag → Bool
  | status => false
  | config | timeScale | seed => true

/-- Whether a text can be the value of a flag. Any text is a path. -/
def accepts : Flag → String → Bool
  | status, _ => false
  | config, _ => true
  | timeScale, text => (Numeral.ofText? text).isSome
  | seed, text => (Numeral.natural? text).isSome

/-- The flag that waits for its value behind an argument, given the one that waits in front of
it. -/
def awaitedBehind : Option Flag → String → Option Flag
  | some _, _ => none
  | none, argument => (ofName? argument).filter (·.takesValue)

/-- The flag that still waits for its value behind some arguments. -/
def awaited (arguments : List String) : Option Flag := arguments.foldl awaitedBehind none

variable {flag : Flag} {argument text : String} {arguments : List String}

@[simp]
lemma ofName?_name (flag : Flag) : ofName? flag.name = some flag := by cases flag <;> rfl

lemma name_eq_of_ofName? (h : ofName? argument = some flag) : flag.name = argument := by
  rw [ofName?] at h
  simpa using List.find?_some h

lemma awaitedBehind_some (flag : Flag) (argument : String) :
    awaitedBehind (some flag) argument = none := rfl

lemma awaitedBehind_none (h : ofName? argument = some flag) :
    awaitedBehind none argument = if flag.takesValue then some flag else none := by
  rw [awaitedBehind, h, Option.filter_some]

lemma awaited_unknown (h : ofName? argument = none) :
    awaited (argument :: arguments) = awaited arguments := by
  rw [awaited, List.foldl_cons, awaitedBehind, h]
  rfl

lemma awaited_status (h : ofName? argument = some .status) :
    awaited (argument :: arguments) = awaited arguments := by
  rw [awaited, List.foldl_cons, awaitedBehind_none h]
  rfl

lemma awaited_setting (h : ofName? argument = some flag) (htakes : flag.takesValue = true) :
    awaited (argument :: text :: arguments) = awaited arguments := by
  rw [awaited, List.foldl_cons, List.foldl_cons, awaitedBehind_none h, if_pos htakes,
    awaitedBehind_some]
  rfl

lemma awaited_lacking (h : ofName? argument = some flag) (htakes : flag.takesValue = true) :
    awaited [argument] = some flag := by
  rw [awaited, List.foldl_cons, List.foldl_nil, awaitedBehind_none h, if_pos htakes]

lemma eq_status_of_takesValue (h : flag.takesValue = false) : flag = status := by
  cases flag with
  | status => rfl
  | config | timeScale | seed => contradiction

end Flag

/-! ### The parts of a command line -/

/-- An argument with the part that it plays in a command line. -/
inductive Argument where
  | unknown (argument : String)
  | status
  /-- A flag whose value follows. -/
  | name (flag : Flag)
  | value (flag : Flag) (text : String)
  /-- A flag that takes a value where the arguments end. -/
  | lacking (flag : Flag)
  deriving DecidableEq, Repr

namespace Argument

/-- The argument as it is written. -/
def text : Argument → String
  | unknown argument => argument
  | status => Flag.status.name
  | name flag | lacking flag => flag.name
  | value _ text => text

/-- The warning that goes with an argument. -/
def warning? : Argument → Option Warning
  | unknown argument => some (.unknownArgument argument)
  | value flag text => if flag.accepts text then none else some (.badValue flag text)
  | lacking flag => some (.missingValue flag)
  | status | name _ => none

/-- The path that is set. -/
@[simp]
def path? : Argument → Option String
  | value .config text => some text
  | _ => none

/-- The time scale that is set. -/
@[simp]
def timeScale? : Argument → Option Float
  | value .timeScale text => Numeral.ofText? text
  | _ => none

/-- The seed that is set. -/
@[simp]
def seed? : Argument → Option Nat
  | value .seed text => Numeral.natural? text
  | _ => none

/-- The warning, if any, that an argument causes in front of others. What is no flag causes one, and
so do a value that cannot be read and a flag that takes a value where the arguments end. The flag
that takes none, a flag with its value behind it and a value that can be read cause none. -/
inductive Causes : Argument → List Argument → Option Warning → Prop
  | unknown {argument : String} {behind : List Argument} (h : Flag.ofName? argument = none) :
      Causes (.unknown argument) behind (some (.unknownArgument argument))
  | rejected {flag : Flag} {text : String} {behind : List Argument}
      (h : flag.accepts text = false) :
      Causes (.value flag text) behind (some (.badValue flag text))
  | lacking {flag : Flag} (h : flag.takesValue = true) :
      Causes (.lacking flag) [] (some (.missingValue flag))
  | status {behind : List Argument} : Causes .status behind none
  | name {flag : Flag} {text : String} {behind : List Argument} (h : flag.takesValue = true) :
      Causes (.name flag) (.value flag text :: behind) none
  | accepted {flag : Flag} {text : String} {behind : List Argument}
      (h : flag.accepts text = true) :
      Causes (.value flag text) behind none

/-- Which parts arguments play. The argument behind a flag that takes a value is this value,
whatever it looks like. -/
inductive Understood : List String → List Argument → Prop
  | nil : Understood [] []
  | unknown {argument : String} {arguments : List String} {parts : List Argument}
      (hflag : Flag.ofName? argument = none) (hrest : Understood arguments parts) :
      Understood (argument :: arguments) (.unknown argument :: parts)
  | status {argument : String} {arguments : List String} {parts : List Argument}
      (hflag : Flag.ofName? argument = some .status) (hrest : Understood arguments parts) :
      Understood (argument :: arguments) (.status :: parts)
  | setting {argument text : String} {flag : Flag} {arguments : List String}
      {parts : List Argument} (hflag : Flag.ofName? argument = some flag)
      (htakes : flag.takesValue = true) (hrest : Understood arguments parts) :
      Understood (argument :: text :: arguments) (.name flag :: .value flag text :: parts)
  | lacking {argument : String} {flag : Flag} (hflag : Flag.ofName? argument = some flag)
      (htakes : flag.takesValue = true) : Understood [argument] [.lacking flag]

section

variable {arguments first second : List String} {parts others behind rest : List Argument}
  {part head : Argument} {flag : Flag} {text : String}

/-- Arguments can always be understood. -/
lemma exists_understood : ∀ arguments : List String, ∃ parts, Understood arguments parts
  | [] => ⟨[], .nil⟩
  | argument :: rest => by
      cases hflag : Flag.ofName? argument with
      | none =>
          obtain ⟨parts, hrest⟩ := exists_understood rest
          exact ⟨_, .unknown hflag hrest⟩
      | some flag =>
          cases htakes : flag.takesValue with
          | false =>
              obtain ⟨parts, hrest⟩ := exists_understood rest
              obtain rfl := Flag.eq_status_of_takesValue htakes
              exact ⟨_, .status hflag hrest⟩
          | true =>
              -- the recursion goes on behind the value
              match rest with
              | [] => exact ⟨_, .lacking hflag htakes⟩
              | text :: rest =>
                  obtain ⟨parts, hrest⟩ := exists_understood rest
                  exact ⟨_, .setting hflag htakes hrest⟩

/-- There is no other way to understand them. -/
lemma Understood.unique (h : Understood arguments parts) (hother : Understood arguments others) :
    others = parts := by
  -- the name of the first argument rules out all constructors but one
  induction h generalizing others with
  | nil =>
      cases hother
      rfl
  | unknown hflag _ ih =>
      cases hother with
      | unknown _ hrest => rw [ih hrest]
      | status | setting | lacking => grind
  | status hflag _ ih =>
      cases hother with
      | status _ hrest => rw [ih hrest]
      | unknown | setting | lacking => grind [Flag.takesValue]
  | setting hflag htakes _ ih =>
      cases hother with
      | setting hflag' _ hrest =>
          obtain rfl := Option.some.inj (hflag.symm.trans hflag')
          rw [ih hrest]
      | unknown | status => grind [Flag.takesValue]
  | lacking hflag htakes =>
      cases hother with
      | lacking hflag' _ => rw [Option.some.inj (hflag.symm.trans hflag')]
      | unknown | status => grind [Flag.takesValue]

lemma Understood.map_text (h : Understood arguments parts) : parts.map (·.text) = arguments := by
  induction h with
  | nil => rfl
  | unknown _ _ ih => rw [List.map_cons, ih, text]
  | status hflag _ ih => rw [List.map_cons, ih, text, Flag.name_eq_of_ofName? hflag]
  | setting hflag _ _ ih =>
      rw [List.map_cons, List.map_cons, ih, text, text, Flag.name_eq_of_ofName? hflag]
  | lacking hflag _ => rw [List.map_cons, List.map_nil, text, Flag.name_eq_of_ofName? hflag]

lemma causes_value : (value flag text).Causes behind (value flag text).warning? := by
  cases haccepts : flag.accepts text with
  | true => simpa [warning?, haccepts] using Causes.accepted haccepts
  | false => simpa [warning?, haccepts] using Causes.rejected haccepts

/-- The first of some parts causes its warning, and the others theirs by themselves. -/
lemma causes_cons (hhead : head.Causes rest head.warning?)
    (hrest : part :: behind <:+ rest → part.Causes behind part.warning?)
    (hsuffix : part :: behind <:+ head :: rest) : part.Causes behind part.warning? := by
  rcases List.suffix_cons_iff.mp hsuffix with heq | hbehind
  · obtain ⟨rfl, rfl⟩ := List.cons.inj heq
    exact hhead
  · exact hrest hbehind

/-- Every part causes the warning that goes with it, and no other, where it stands. -/
lemma Understood.causes (h : Understood arguments parts) (hsuffix : part :: behind <:+ parts) :
    part.Causes behind part.warning? := by
  induction h with
  | nil => simp at hsuffix
  | unknown hflag _ ih => exact causes_cons (.unknown hflag) ih hsuffix
  | status _ _ ih => exact causes_cons .status ih hsuffix
  | setting _ htakes _ ih => exact causes_cons (.name htakes) (causes_cons causes_value ih) hsuffix
  | lacking _ htakes => exact causes_cons (.lacking htakes) (by simp) hsuffix

/-- Where no flag waits for its value, what comes behind is understood by itself. -/
lemma Understood.append (h : Understood first parts) (hcomplete : Flag.awaited first = none)
    (hsecond : Understood second others) : Understood (first ++ second) (parts ++ others) := by
  induction h with
  | nil => exact hsecond
  | unknown hflag _ ih =>
      rw [Flag.awaited_unknown hflag] at hcomplete
      exact .unknown hflag (ih hcomplete)
  | status hflag _ ih =>
      rw [Flag.awaited_status hflag] at hcomplete
      exact .status hflag (ih hcomplete)
  | setting hflag htakes _ ih =>
      rw [Flag.awaited_setting hflag htakes] at hcomplete
      exact .setting hflag htakes (ih hcomplete)
  | lacking hflag htakes =>
      rw [Flag.awaited_lacking hflag htakes] at hcomplete
      contradiction

/-- A flag has no value just if it still waits for it behind all arguments. -/
lemma Understood.lacking_mem_iff (h : Understood arguments parts) :
    .lacking flag ∈ parts ↔ Flag.awaited arguments = some flag := by
  induction h with
  | nil => simp [Flag.awaited]
  | unknown hflag _ ih => simp [Flag.awaited_unknown hflag, ih]
  | status hflag _ ih => simp [Flag.awaited_status hflag, ih]
  | setting hflag htakes _ ih => simp [Flag.awaited_setting hflag htakes, ih]
  | lacking hflag htakes => simp [Flag.awaited_lacking hflag htakes, eq_comm]

lemma warning?_eq_missingValue_iff :
    part.warning? = some (.missingValue flag) ↔ part = .lacking flag := by
  cases part <;> simp [warning?]

end

end Argument

/-! ### What is set -/

namespace Options

variable {arguments first second : List String} {parts : List Argument} {argument text : String}
  {flag : Flag}

/-- What later arguments set, over what earlier ones have set. -/
def updated (earlier later : Options) : Options where
  configPath := later.configPath.or earlier.configPath
  timeScale := later.timeScale.or earlier.timeScale
  seed := later.seed.or earlier.seed
  showStatus := earlier.showStatus || later.showStatus

lemma updated_assoc (a b c : Options) : (a.updated b).updated c = a.updated (b.updated c) := by
  simp [updated, Option.or_assoc, Bool.or_assoc]

lemma updated_empty (o : Options) : o.updated {} = o := by simp [updated]

lemma empty_updated (o : Options) : updated {} o = o := by simp [updated]

/-- What parts set: the last value of each kind that can be read, and the flag that takes none. -/
def ofParts (parts : List Argument) : Options where
  configPath := (parts.filterMap (·.path?)).getLast?
  timeScale := (parts.filterMap (·.timeScale?)).getLast?
  seed := (parts.filterMap (·.seed?)).getLast?
  showStatus := parts.contains .status

lemma ofParts_append (parts others : List Argument) :
    ofParts (parts ++ others) = (ofParts parts).updated (ofParts others) := by
  simp [ofParts, updated, List.getLast?_append]

lemma ofParts_cons (part : Argument) (parts : List Argument) :
    ofParts (part :: parts) = (ofParts [part]).updated (ofParts parts) :=
  ofParts_append [part] parts

lemma updated_status (o : Options) :
    o.updated (ofParts [.status]) = { o with showStatus := true } := by
  simp [updated, ofParts]

/-- What can be a value is set. -/
lemma set?_of_accepts (o : Options) (h : flag.accepts text = true) :
    o.set? flag text = some (o.updated (ofParts [.value flag text])) := by
  cases flag with
  | status => contradiction
  | config => simp [set?, updated, ofParts]
  | timeScale =>
      obtain ⟨x, hx⟩ := Option.isSome_iff_exists.mp h
      simp [set?, updated, ofParts, hx]
  | seed =>
      obtain ⟨n, hn⟩ := Option.isSome_iff_exists.mp h
      simp [set?, updated, ofParts, hn]

/-- What cannot be a value is not set. -/
lemma set?_of_rejects (o : Options) (htakes : flag.takesValue = true)
    (h : flag.accepts text = false) :
    o.set? flag text = none ∧ ofParts [.value flag text] = {} := by
  cases flag with
  | status | config => contradiction
  | timeScale =>
      have hnone := Option.isSome_eq_false_iff.mp h
      simp_all [set?, ofParts]
  | seed =>
      have hnone := Option.isSome_eq_false_iff.mp h
      simp_all [set?, ofParts]

/-! ### What is read -/

lemma read_unknown (h : Flag.ofName? argument = none) (o : Options) :
    o.read (argument :: arguments) =
      ((o.read arguments).1, .unknownArgument argument :: (o.read arguments).2) := by
  rw [read, h]

lemma read_status (h : Flag.ofName? argument = some .status) (o : Options) :
    o.read (argument :: arguments) = read { o with showStatus := true } arguments := by
  rw [read, h]

lemma read_lacking (h : Flag.ofName? argument = some flag) (htakes : flag.takesValue = true)
    (o : Options) : o.read [argument] = (o, [.missingValue flag]) := by
  cases flag with
  | status => contradiction
  | config | timeScale | seed => rw [read, h]

lemma read_accepted {o set : Options} (h : Flag.ofName? argument = some flag)
    (htakes : flag.takesValue = true) (hset : o.set? flag text = some set) :
    o.read (argument :: text :: arguments) = set.read arguments := by
  cases flag with
  | status => contradiction
  | config | timeScale | seed => simp only [read, h, hset]

lemma read_rejected {o : Options} (h : Flag.ofName? argument = some flag)
    (htakes : flag.takesValue = true) (hset : o.set? flag text = none) :
    o.read (argument :: text :: arguments) =
      ((o.read arguments).1, .badValue flag text :: (o.read arguments).2) := by
  cases flag with
  | status => contradiction
  | config | timeScale | seed => simp only [read, h, hset]

/-- What is read off arguments is what their parts set, on top of what was set before. -/
lemma read_eq (h : Argument.Understood arguments parts) (o : Options) :
    o.read arguments = (o.updated (ofParts parts), parts.filterMap (·.warning?)) := by
  induction h generalizing o with
  | nil => exact Prod.ext (updated_empty o).symm rfl
  | unknown hflag _ ih =>
      rw [read_unknown hflag, ih]
      rfl
  | status hflag _ ih =>
      rw [read_status hflag, ih, ofParts_cons, ← updated_assoc, updated_status]
      rfl
  | @setting _ text flag _ parts hflag htakes _ ih =>
      -- the name sets nothing by itself
      have hname : ofParts (.name flag :: .value flag text :: parts) =
          (ofParts [.value flag text]).updated (ofParts parts) :=
        ofParts_cons (.value flag text) parts
      rw [hname, ← updated_assoc]
      cases haccepts : flag.accepts text with
      | true =>
          rw [read_accepted hflag htakes (set?_of_accepts o haccepts), ih]
          simp [Argument.warning?, haccepts]
      | false =>
          obtain ⟨hnone, hnothing⟩ := set?_of_rejects o htakes haccepts
          rw [read_rejected hflag htakes hnone, hnothing, updated_empty, ih]
          simp [Argument.warning?, haccepts]
  | lacking hflag htakes =>
      rw [read_lacking hflag htakes]
      exact Prod.ext (updated_empty o).symm rfl

lemma ofArguments_eq (h : Argument.Understood arguments parts) :
    ofArguments arguments = (ofParts parts, parts.filterMap (·.warning?)) := by
  rw [ofArguments, read_eq h, empty_updated]

/-- A value is missing just if its flag still waits for it behind all arguments. -/
lemma missingValue_mem_iff (arguments : List String) (flag : Flag) :
    .missingValue flag ∈ (ofArguments arguments).2 ↔ Flag.awaited arguments = some flag := by
  obtain ⟨parts, h⟩ := Argument.exists_understood arguments
  rw [ofArguments_eq h, ← h.lacking_mem_iff, List.mem_filterMap]
  simp only [Argument.warning?_eq_missingValue_iff, exists_eq_right]

/-- What is read off arguments, part by part: there is no other way to understand them; each part is
written as its argument; of every kind, the last value that can be read is set; and the warnings are
those of the parts, in order, each part causing its own where it stands. -/
structure ReadOff (arguments : List String) (parts : List Argument) : Prop where
  understood : Argument.Understood arguments parts
  unique : ∀ others, Argument.Understood arguments others → others = parts
  spelled : parts.map (·.text) = arguments
  read : ofArguments arguments = (ofParts parts, parts.filterMap (·.warning?))
  causes : ∀ part behind, part :: behind <:+ parts → part.Causes behind part.warning?

lemma exists_readOff (arguments : List String) : ∃ parts, ReadOff arguments parts := by
  obtain ⟨parts, h⟩ := Argument.exists_understood arguments
  refine ⟨parts, h, ?_, h.map_text, ofArguments_eq h, ?_⟩
  · intro others hothers
    exact h.unique hothers
  · intro part behind hsuffix
    exact h.causes hsuffix

/-! ### One command line behind the other -/

/-- Where no flag waits for its value, the arguments in front and behind are read apart. -/
lemma ofArguments_append (hcomplete : Flag.awaited first = none) (second : List String) :
    ofArguments (first ++ second) = ((ofArguments first).1.updated (ofArguments second).1,
      (ofArguments first).2 ++ (ofArguments second).2) := by
  obtain ⟨parts, hfirst⟩ := Argument.exists_understood first
  obtain ⟨others, hsecond⟩ := Argument.exists_understood second
  calc ofArguments (first ++ second)
      = (ofParts (parts ++ others), (parts ++ others).filterMap (·.warning?)) :=
        ofArguments_eq (hfirst.append hcomplete hsecond)
    _ = ((ofParts parts).updated (ofParts others),
          parts.filterMap (·.warning?) ++ others.filterMap (·.warning?)) := by
        rw [ofParts_append, List.filterMap_append]
    _ = _ := by rw [ofArguments_eq hfirst, ofArguments_eq hsecond]

/-- **Command lines compose.**

Any arguments are read off part by part, and a value is missing just if a flag still waits for it
behind them. Where no flag does, whatever comes behind is read apart: of the values of each kind the
later one counts, the status is shown if it is asked for on either side, and the warnings follow one
another. There, moreover, what stands behind a flag that takes a value is this value, even if it
looks like a flag. -/
theorem arguments_compose :
    (∀ arguments, ∃ parts, ReadOff arguments parts) ∧
    (∀ arguments flag, .missingValue flag ∈ (ofArguments arguments).2 ↔
      Flag.awaited arguments = some flag) ∧
    ∀ first, Flag.awaited first = none →
      (∀ second, ofArguments (first ++ second) =
        ((ofArguments first).1.updated (ofArguments second).1,
          (ofArguments first).2 ++ (ofArguments second).2)) ∧
      ∀ flag text second parts others, flag.takesValue = true →
        Argument.Understood first parts → Argument.Understood second others →
        Argument.Understood (first ++ flag.name :: text :: second)
          (parts ++ .name flag :: .value flag text :: others) := by
  refine ⟨exists_readOff, missingValue_mem_iff, ?_⟩
  intro first hcomplete
  refine ⟨ofArguments_append hcomplete, ?_⟩
  intro flag text second parts others htakes hfirst hsecond
  have hvalue : Argument.Understood (flag.name :: text :: second)
      (.name flag :: .value flag text :: others) :=
    .setting (Flag.ofName?_name flag) htakes hsecond
  exact hfirst.append hcomplete hvalue

/-- A path that looks like a flag, a time scale that is no number, an argument that is no flag, the
status in place of a second seed, and a flag without its value at the end. -/
theorem arguments_compose_lookalikes :
    (Flag.awaited ["--config", "--seed", "--timescale", "fast", "--seed", "42", "-v"] = none ∧
      ofArguments (["--config", "--seed", "--timescale", "fast", "--seed", "42", "-v"] ++
          ["--seed", "--status", "--status", "--config"]) =
        ({ configPath := some "--seed", seed := some 42, showStatus := true },
          [.badValue .timeScale "fast", .unknownArgument "-v", .badValue .seed "--status",
            .missingValue .config])) ∧
    Argument.Understood (["--status"] ++ Flag.config.name :: "--timescale" :: ["2"])
      ([.status] ++ .name .config :: .value .config "--timescale" :: [.unknown "2"]) := by
  obtain ⟨-, -, hcompose⟩ := arguments_compose
  obtain ⟨happend, -⟩ := hcompose
    ["--config", "--seed", "--timescale", "fast", "--seed", "42", "-v"] rfl
  obtain ⟨-, hvalue⟩ := hcompose ["--status"] rfl
  exact ⟨⟨rfl, (happend _).trans rfl⟩,
    hvalue .config _ _ _ _ rfl (.status rfl .nil) (.unknown rfl .nil)⟩

end Options

end ElevatorFleet
