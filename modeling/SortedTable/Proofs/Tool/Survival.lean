import Mathlib.Data.List.ReduceOption
import SortedTable.Proofs.Session.Writable
import SortedTable.Tool.Basic

namespace SortedTable

open Session (Action IsCurrent IsReadable)

variable {settings : Settings} {folder : Path} {session next last : Session} {store later : Store}
  {medium : Medium} {clock : Nat → Int64}

/-- What a command that does not end the tool does to the session, if anything. -/
def Command.action? (medium : Medium) (now : Int64) : Command → Option Action
  | .put key column value => some (.put now (Tool.keyOfText key) column (Bytes.ofText value))
  | .putStatic key column value =>
      some (.putStatic now (Tool.keyOfText key) column (Bytes.ofText value))
  | .delete key => some (.delete now (Tool.keyOfText key))
  | .flush => some (.flush medium)
  | _ => none

namespace Tool

/-- Why the tool takes no further line. -/
inductive Stop where
  /-- It got the command to exit. -/
  | exit
  /-- The input has ended. -/
  | ended
  /-- The bytes of the line are no text. -/
  | unreadable
  deriving DecidableEq

/-- What each line does to the session, from this reading of the clock on, and why none is taken
further. -/
def hear (medium : Medium) (clock : Nat → Int64) : Nat → List Bytes → List (Option Action) × Stop
  | _, [] => ([], .ended)
  | reading, bytes :: rest =>
      match (Bytes.text? (withoutEnd bytes)).map Command.ofLine with
      | none => ([], .unreadable)
      | some .exit => ([], .exit)
      | some command =>
          let (heard, stop) := hear medium clock (reading + 1) rest
          (command.action? medium (clock reading) :: heard, stop)

/-- A reply acknowledges a write or a deletion. -/
def Acknowledges (action? : Option Action) (reply : String) : Prop :=
  ∀ action, action? = some action → action.reading?.isSome = true → reply = line "OK" ++ prompt

/-- Behind a first output, every line that was heard got a reply of its own, and a farewell follows. -/
def Replies (heard : List (Option Action)) (first output : String) : Prop :=
  ∃ replies farewell, List.Forall₂ Acknowledges heard replies ∧
    output = replies.foldl String.append first ++ farewell

theorem Replies.cons {action? : Option Action} {heard : List (Option Action)}
    {first reply output : String} (own : Acknowledges action? reply)
    (others : Replies heard (first ++ reply) output) : Replies (action? :: heard) first output := by
  obtain ⟨replies, farewell, each, printed⟩ := others
  exact ⟨reply :: replies, farewell, .cons own each, printed⟩

/-- How the tool ends behind the last line that it takes, and what it leaves. -/
def leave (medium : Medium) : Stop → Except Overflow Session × Store → Ending × Store
  | _, (.error cause, store) => (.ofError (.overflow cause), store)
  | .unreadable, (.ok _, store) => (invalidLine, store)
  | .ended, (.ok session, store) => finish medium session store
  | .exit, (.ok session, store) =>
      match session.flush medium store with
      | (.error (.overflow cause), _, store) => (.ofError (.overflow cause), store)
      -- whether the flush fails does not matter here
      | (_, _, store) => (.success, store)

/-- The session that goes on behind a reply, or how the tool ends, and what the reply leaves. -/
def Reply.outcome (reply : Reply) : Except Ending Session × Store := (reply.next, reply.store)

/-- The outcome of an action, of which only an overflow ends the tool. -/
def outcomeOf (result : Except Overflow Session × Store) : Except Ending Session × Store :=
  (result.1.mapError fun cause => .ofError (.overflow cause), result.2)

/-- A flush on command is the action. -/
theorem outcome_ofFlush (medium : Medium) (session : Session) (store : Store) :
    (Reply.ofFlush medium session store).outcome = outcomeOf (session.undergo store (.flush medium)) := by
  unfold Reply.ofFlush Session.undergo
  dsimp only
  rcases session.flush medium store with ⟨(error | summary), middle, between⟩
  · cases error <;> rfl
  · rfl

/-- A command that does not end the tool does what its action does. -/
theorem outcome_obey (medium : Medium)
    (readable : session.IsReadable settings folder store.disk) (now : Int64) {command : Command}
    (goes : command ≠ .exit) :
    (obey medium session now store command).outcome =
      outcomeOf ((command.action? medium now).elim (.ok session, store) (session.undergo store)) := by
  cases command with
  | exit => exact absurd rfl goes
  | flush => exact outcome_ofFlush medium session store
  | get key =>
      obtain ⟨standing, known⟩ := readable.known (keyOfText key)
      obtain ⟨views, got, -⟩ := Session.get_of_reading known
      unfold obey
      dsimp only
      rw [got]
      rfl
  | _ => rfl

/-- The command to exit ends the tool behind a flush. -/
theorem outcome_exit (medium : Medium) (session : Session) (now : Int64) (store : Store) :
    (obey medium session now store .exit).outcome =
      ((.error (leave medium .exit (.ok session, store)).1),
        (leave medium .exit (.ok session, store)).2) := by
  unfold obey Reply.ofFlush leave
  dsimp only
  rcases session.flush medium store with ⟨(error | summary), middle, between⟩
  · cases error <;> rfl
  · rfl

/-- Every write and every deletion is acknowledged. -/
theorem acknowledges_obey (medium : Medium) (session : Session) (now : Int64) (store : Store)
    (command : Command) : Acknowledges (command.action? medium now)
      ((obey medium session now store command).answer ++ prompt) := by
  intro action acts writes
  cases command with
  | put key column value => rfl
  | putStatic key column value => rfl
  | delete key => rfl
  | _ => cases acts <;> cases writes

section Lines

variable {bytes : Bytes} {text : String} (decoded : Bytes.text? (withoutEnd bytes) = some text)
include decoded

theorem hear_cons (medium : Medium) (clock : Nat → Int64) (reading : Nat) (rest : List Bytes) :
    hear medium clock reading (bytes :: rest) =
      if Command.ofLine text = .exit then ([], .exit)
      else ((Command.ofLine text).action? medium (clock reading) ::
          (hear medium clock (reading + 1) rest).1, (hear medium clock (reading + 1) rest).2) := by
  rw [hear, decoded, Option.map_some]
  cases Command.ofLine text <;> rfl

/-- Behind a command that does not end it the tool prints the answer and takes the next line. -/
theorem answerAll_of_ok {reading : Nat}
    (goesOn : (obey medium session (clock reading) store (Command.ofLine text)).outcome =
      (.ok next, later)) (rest : List Bytes) (output : String) :
    answerAll medium clock reading (bytes :: rest) session store output =
      answerAll medium clock (reading + 1) rest next later
        (output ++ ((obey medium session (clock reading) store (Command.ofLine text)).answer ++
          prompt)) := by
  rw [answerAll, answerLine, decoded]
  unfold answerText
  dsimp only
  generalize obey medium session (clock reading) store (Command.ofLine text) = reply at goesOn ⊢
  obtain ⟨answer, goes, after⟩ := reply
  cases goesOn
  rfl

/-- A command that ends the tool is answered last. -/
theorem answerAll_of_error {reading : Nat} {ending : Ending}
    (ends : (obey medium session (clock reading) store (Command.ofLine text)).outcome =
      (.error ending, later)) (rest : List Bytes) (output : String) :
    answerAll medium clock reading (bytes :: rest) session store output =
      (⟨output ++ (obey medium session (clock reading) store (Command.ofLine text)).answer, ending⟩,
        later) := by
  rw [answerAll, answerLine, decoded]
  unfold answerText
  dsimp only
  generalize obey medium session (clock reading) store (Command.ofLine text) = reply at ends ⊢
  obtain ⟨answer, goes, after⟩ := reply
  cases ends
  rfl

end Lines

/-- The tool does what its lines do, one after the other, and ends as it stops. -/
theorem answerAll_eq (readable : session.IsReadable settings folder store.disk) {lines : List Bytes}
    {reading : Nat} (fit : session.AllFit store (hear medium clock reading lines).1.reduceOption)
    (output : String) :
    ((answerAll medium clock reading lines session store output).1.ending,
        (answerAll medium clock reading lines session store output).2) =
        leave medium (hear medium clock reading lines).2
          (session.undergoAll store (hear medium clock reading lines).1.reduceOption) ∧
      ∀ last later, session.undergoAll store (hear medium clock reading lines).1.reduceOption =
          (.ok last, later) →
        Replies (hear medium clock reading lines).1 output
          (answerAll medium clock reading lines session store output).1.output := by
  induction lines generalizing session store reading output with
  | nil => exact ⟨rfl, fun _ _ _ => ⟨[], "", .nil, String.append_empty.symm⟩⟩
  | cons bytes rest ih =>
      cases decoded : Bytes.text? (withoutEnd bytes) with
      | none =>
          rw [answerAll, answerLine, hear, decoded]
          exact ⟨rfl, fun _ _ _ => ⟨[], "", .nil, rfl⟩⟩
      | some text =>
          rw [hear_cons decoded] at fit ⊢
          by_cases exits : Command.ofLine text = .exit
          · have ends := outcome_exit medium session (clock reading) store
            rw [← exits] at ends
            rw [if_pos exits, answerAll_of_error decoded ends]
            exact ⟨rfl, fun _ _ _ => ⟨[], _, .nil, rfl⟩⟩
          · have told := outcome_obey medium readable (clock reading) exits
            have own := acknowledges_obey medium session (clock reading) store (Command.ofLine text)
            rw [if_neg exits] at fit ⊢
            cases acts : (Command.ofLine text).action? medium (clock reading) with
            | none =>
                rw [acts] at told fit own
                rw [answerAll_of_ok decoded told]
                obtain ⟨ended, replied⟩ := ih readable fit _
                exact ⟨ended, fun last later underwent => (replied last later underwent).cons own⟩
            | some action =>
                rw [acts] at told fit own
                rw [List.reduceOption_cons_of_some] at fit ⊢
                rcases underwent : session.undergo store action with ⟨(cause | middle), between⟩
                · rw [Option.elim_some, underwent] at told
                  rw [answerAll_of_error decoded told, Session.undergoAll, underwent]
                  exact ⟨rfl, fun _ _ goes => by cases goes⟩
                · rw [Option.elim_some, underwent] at told
                  have took := Session.Took.undergo readable.toIsCurrent fit.1 underwent
                  rw [answerAll_of_ok decoded told, Session.undergoAll, underwent]
                  obtain ⟨ended, replied⟩ := ih (readable.took took) (fit.2 middle _ underwent) _
                  exact ⟨ended, fun last later underwent => (replied last later underwent).cons own⟩

/-- A tool that was started has started a session. -/
theorem start_of_start {lookup : String → Option String}
    (started : start lookup store = (.ok session, later)) :
    Session.start session.settings store = (.ok session, later) := by
  unfold start at started
  split at started
  · cases started
  · rename_i settings read
    dsimp only at started
    rcases begun : Session.start settings store with ⟨result, after⟩
    rw [begun] at started
    obtain ⟨mapped, rfl⟩ := Prod.mk.inj started
    obtain rfl : result = .ok session := Except.mapError_eq_ok_iff.1 mapped
    obtain ⟨tables, next, rfl⟩ := Session.eq_fresh_of_start begun
    exact begun

/-- The tool keeps all that it acknowledged, unless the last flush fails or a line is no text. -/
theorem run_survives {lookup : String → Option String} {input : Bytes} {opened middle ended : Store}
    {heard : List (Option Action)} {stop : Stop} {result : Run}
    (started : start lookup store = (.ok session, opened))
    (listed : opened.disk.names session.settings.dataDir = .ok [])
    (hears : hear .sound clock 0 (lines input) = (heard, stop))
    (fit : session.AllFit opened heard.reduceOption)
    (underwent : session.undergoAll opened heard.reduceOption = (.ok last, middle))
    (ran : run .sound clock lookup input store = (result, ended)) :
    Replies heard (greeting session) result.output ∧
      (∀ key, last.reading middle.disk key =
        .ok (Session.standingAfter key 0 heard.reduceOption)) ∧
      (stop = .unreadable → result.ending = invalidLine ∧ last.LosesBuffer middle.disk ended) ∧
      (stop ≠ .unreadable → ∀ error next later, last.FlushFits .sound →
        last.flush .sound middle = (.error error, next, later) →
        (∀ cause, error ≠ .overflow cause) →
        result.ending = (if stop = .exit then .success else .ofError error) ∧
          last.LosesBuffer middle.disk ended) ∧
      (stop ≠ .unreadable → (last.memtable.isEmpty = false → last.IsWritable) →
        result.ending = .success ∧ last.Survives middle.disk ended) := by
  have begun := start_of_start started
  have valid := Session.validate_of_start begun
  obtain ⟨folder, readable, known⟩ := Session.isReadable_of_names begun listed
  have took := Session.Took.undergoAll readable.toIsCurrent fit underwent
  have readable' := readable.took took
  -- the tool ends as it leaves the session behind all that it heard
  obtain ⟨rfl, rfl⟩ := Prod.mk.inj hears
  obtain ⟨left, replied⟩ := answerAll_eq readable fit (greeting session)
  replace replied := replied last middle underwent
  rw [underwent] at left
  have runs : run .sound clock lookup input store =
      answerAll .sound clock 0 (lines input) session opened (greeting session) := by
    rw [run, started]
  rw [← runs, ran] at left replied
  dsimp only at left replied
  generalize (hear .sound clock 0 (lines input)).2 = stop at left ⊢
  refine ⟨replied, fun key => ?_, ?_, ?_, ?_⟩
  · rw [took.reading, known, Session.lastTimestamp_of_start begun, Reading.ok_mul_ok, one_mul]
  · rintro rfl
    obtain ⟨ending, rfl⟩ := Prod.mk.inj left
    exact ⟨ending, took.current.losesBuffer valid⟩
  · intro heard error next later fits failed counted
    have lost := took.current.losesBuffer_of_flush valid fits failed counted
    cases stop with
    | unreadable => exact absurd rfl heard
    | ended =>
        rw [leave, finish, failed] at left
        obtain ⟨ending, rfl⟩ := Prod.mk.inj left
        exact ⟨ending, lost⟩
    | exit =>
        have left' : (result.ending, ended) = (.success, later) := by
          rw [left, leave, failed]
          cases error with
          | overflow cause => exact absurd rfl (counted cause)
          | _ => rfl
        obtain ⟨ending, rfl⟩ := Prod.mk.inj left'
        exact ⟨ending, lost⟩
  · intro heard writable
    obtain ⟨summary, next, later, flushed⟩ := took.current.exists_flush valid writable
    have kept := readable'.survives valid (Session.IsWritable.fits writable) flushed
    have left' : (result.ending, ended) = (.success, later) := by
      rw [left]
      cases stop with
      | unreadable => exact absurd rfl heard
      | ended => rw [leave, finish, flushed]
      | exit => rw [leave, flushed]
    obtain ⟨ending, rfl⟩ := Prod.mk.inj left'
    exact ⟨ending, kept⟩

/-- Variables with which tables get no filter. -/
def unfiltered (name : String) : Option String :=
  if name = Variable.falsePositiveChance.name then some "1" else none

/-- A tool that was started on a disk without anything. -/
def trialStart : Session × Store :=
  ((start unfiltered ⟨.empty, []⟩).1.toOption.getD default, (start unfiltered ⟨.empty, []⟩).2)

/-- A value is put in the fifth microsecond, and the command to exit follows. -/
def trialInput : Bytes := Bytes.ofText "PUT j v 2\nEXIT\n"

theorem hear_trialInput : hear .sound (fun _ => 5) 0 (lines trialInput) =
    ([some (.put 5 (keyOfText "j") "v" (Bytes.ofText "2"))], .exit) := by
  have cut : lines trialInput = [Bytes.ofText "PUT j v 2\n", Bytes.ofText "EXIT\n"] ∧
      Bytes.text? (withoutEnd (Bytes.ofText "PUT j v 2\n")) = some "PUT j v 2" ∧
      Bytes.text? (withoutEnd (Bytes.ofText "EXIT\n")) = some "EXIT" ∧
      Command.ofLine "PUT j v 2" = .put "j" "v" "2" ∧ Command.ofLine "EXIT" = .exit := by
    decide +kernel
  obtain ⟨cut, first, second, put, exit⟩ := cut
  rw [cut, hear_cons first, put, if_neg nofun, hear_cons second, if_pos exit]
  rfl

/-- The session of the trial in front of the command to exit. -/
def trialEnd : Session := trialStart.1.put 5 (keyOfText "j") "v" (Bytes.ofText "2")

theorem isWritable_trialEnd : trialEnd.IsWritable := by
  have evaluated : trialEnd.IsEncodable ∧
      (∀ partition ∈ trialEnd.memtable.toList, partition.UnitsFit) ∧
      (exactSum trialEnd.nextGeneration 1).toOption.isSome = true := by decide +kernel
  obtain ⟨encodable, units, further⟩ := evaluated
  obtain ⟨generation, further⟩ := Option.isSome_iff_exists.1 further
  exact ⟨encodable.texts, encodable.sized, encodable.encodes, units,
    ⟨generation, Except.toOption_eq_some_iff.1 further⟩⟩

/-- What is put is acknowledged and survives the command to exit. -/
theorem run_survives_exit :
    Replies [some (.put 5 (keyOfText "j") "v" (Bytes.ofText "2"))] (greeting trialStart.1)
        (run .sound (fun _ => 5) unfiltered trialInput ⟨.empty, []⟩).1.output ∧
      (∀ key, trialEnd.reading trialStart.2.disk key = .ok (Session.standingAfter key 0
        [.put 5 (keyOfText "j") "v" (Bytes.ofText "2")])) ∧
      (run .sound (fun _ => 5) unfiltered trialInput ⟨.empty, []⟩).1.ending = .success ∧
      trialEnd.Survives trialStart.2.disk
        (run .sound (fun _ => 5) unfiltered trialInput ⟨.empty, []⟩).2 := by
  have evaluated : (start unfiltered ⟨.empty, []⟩).1.toOption.isSome = true ∧
      trialStart.2.disk.names trialStart.1.settings.dataDir = .ok [] := by decide +kernel
  have started : start unfiltered ⟨.empty, []⟩ = (.ok trialStart.1, trialStart.2) :=
    Prod.ext (Except.eq_ok_getD evaluated.1) rfl
  have fit : trialStart.1.AllFit trialStart.2 [.put 5 (keyOfText "j") "v" (Bytes.ofText "2")] :=
    ⟨nofun, fun _ _ _ => trivial⟩
  have underwent : trialStart.1.undergoAll trialStart.2
      [.put 5 (keyOfText "j") "v" (Bytes.ofText "2")] = (.ok trialEnd, trialStart.2) := rfl
  obtain ⟨replied, known, -, -, kept⟩ :=
    run_survives started evaluated.2 hear_trialInput fit underwent (Prod.eta _).symm
  exact ⟨replied, known, kept nofun fun _ => isWritable_trialEnd⟩

/-- Behind a line that is no text nothing is left of a value that was put, although that was answered. -/
theorem run_loses_unreadable :
    let outcome := run .sound (fun _ => 5) (fun _ => none)
      (Bytes.ofText "PUT j v 2\n" ++ [0xff, 10]) ⟨.empty, []⟩
    outcome.1.output =
        greeting ((start (fun _ => none) ⟨.empty, []⟩).1.toOption.getD default) ++ "OK\n> " ∧
      outcome.1.ending = invalidLine ∧ outcome.2.disk.names "data/sstables" = .ok [] := by
  decide +kernel

end Tool

end SortedTable
