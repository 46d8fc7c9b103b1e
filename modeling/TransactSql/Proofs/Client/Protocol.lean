/-
TransactSql.Proofs.Client.Protocol — what clients may rely on.

Whatever happens to connections, commands and transactions, and through
whatever handles, a command holds no transaction of another connection, a
transaction is completed once, and a command is run exactly if nothing
stands in its way (`protocol`).

`Tracks` says how a log of events shows in the clients after them, and
`CommandsFit` what is true of the commands. One event keeps both, so they
hold after any number of events, and they decide what becomes of an
execution (`execute_cases`).
-/
import TransactSql.Proofs.Client.Events
import TransactSql.Proofs.Client.Parameters
import TransactSql.Proofs.Except

namespace TransactSql

namespace Clients

/-! ## The log -/

/-- What is answered to the commits and rollbacks of a transaction: the first one completes it, and
all later ones are refused. -/
def Completes (completed : Bool) (answers : List Answer) : Prop :=
  match completed with
  | false => answers = []
  | true => ∃ n, answers = .done :: List.replicate n (.failed .transactionCompleted)

/-- How a log shows in the clients after it. -/
structure Tracks (log : Log) (w : Clients) : Prop where
  isOpen : ∀ c, w.session.isOpen c = true ↔ log.IsOpen c
  completes : ∀ t, Completes (w.session.isCompleted t) (log.completions t)
  /-- A transaction knows its connection, and its number has been given out. -/
  begun : ∀ c t, (c, t) ∈ log.begun → t.connection = c ∧ t.id < w.session.nextId
  nodup : (log.begun.map Prod.snd).Nodup
  transactions : ∀ t ∈ w.transactions, (t.connection, t) ∈ log.begun

variable {w : Clients} {log : Log} {answer : Answer}

theorem isOpen_concat (c : Connection) (effect : Effect) :
    Log.IsOpen (log ++ [(effect, answer)]) c ↔
      match effect with
      | .opens opened => opened = c ∨ log.IsOpen c
      | .closes closed => closed ≠ c ∧ log.IsOpen c
      | _ => log.IsOpen c := by
  cases effect with
  | opens opened => by_cases h : opened = c <;> simp [Log.IsOpen, Log.switches, h]
  | closes closed => by_cases h : closed = c <;> simp [Log.IsOpen, Log.switches, h]
  | _ => simp [Log.IsOpen, Log.switches]

theorem completions_concat (t : Transaction) (effect : Effect) :
    Log.completions (log ++ [(effect, answer)]) t =
      match effect with
      | .completes completed =>
        if completed = t then log.completions t ++ [answer] else log.completions t
      | _ => log.completions t := by
  cases effect with
  | completes completed => by_cases h : completed = t <;> simp [Log.completions, h]
  | _ => simp [Log.completions]

theorem begun_concat (effect : Effect) :
    Log.begun (log ++ [(effect, answer)]) =
      match effect with
      | .begins connection t => log.begun ++ [(connection, t)]
      | _ => log.begun := by
  cases effect <;> simp [Log.begun]

/-- Whether a connection is open is told by how it was last opened or closed. -/
theorem isOpen_step (h : ∀ c, w.session.isOpen c = true ↔ log.IsOpen c) (event : Event)
    (c : Connection) : (w.step event).2.session.isOpen c = true ↔
      Log.IsOpen (log ++ [(w.effect event, (w.step event).1)]) c := by
  have hstep := w.step_effect event
  rw [isOpen_concat]
  cases heffect : w.effect event with
  | opens opened =>
    rw [heffect] at hstep
    rw [hstep, Session.isOpen_openConnection, Bool.or_eq_true, beq_iff_eq, h c, eq_comm]
  | closes closed =>
    rw [heffect] at hstep
    rw [hstep, Session.isOpen_closeConnection, Bool.and_eq_true, bne_iff_ne, h c, ne_comm]
  | begins connection t =>
    rw [heffect] at hstep
    obtain ⟨session, hbegin, hstep⟩ := hstep
    rw [hstep, (Session.beginTransaction_eq_ok hbegin).2]
    exact h c
  | completes t =>
    rw [heffect] at hstep
    rw [hstep]
    rcases w.complete_cases t with ⟨-, hcomplete⟩ | ⟨-, hcomplete⟩ <;> rw [hcomplete] <;> exact h c
  | other =>
    rw [heffect] at hstep
    rw [Session.isOpen, hstep.opened]
    exact h c

theorem isCompleted_complete (u t : Transaction) :
    (w.complete u).2.session.isCompleted t = (t == u || w.session.isCompleted t) := by
  rcases w.complete_cases u with ⟨-, hcomplete⟩ | ⟨hcompleted, hcomplete⟩ <;> rw [hcomplete]
  · simp only [Session.isCompleted, List.contains_cons]
  · by_cases h : t = u
    · rw [h, hcompleted, Bool.or_true]
    · simp [h]

theorem completes_complete (h : ∀ t, Completes (w.session.isCompleted t) (log.completions t))
    (u t : Transaction) : Completes ((w.complete u).2.session.isCompleted t)
      (if u = t then log.completions t ++ [(w.complete u).1] else log.completions t) := by
  rw [isCompleted_complete]
  by_cases hut : u = t
  · subst hut
    have hu := h u
    rw [if_pos rfl, beq_self_eq_true, Bool.true_or]
    rcases w.complete_cases u with ⟨hcompleted, hcomplete⟩ | ⟨hcompleted, hcomplete⟩
    · rw [hcompleted] at hu
      rw [hcomplete, show log.completions u = [] from hu]
      exact ⟨0, rfl⟩
    · rw [hcompleted] at hu
      obtain ⟨n, hn⟩ := hu
      rw [hcomplete, hn]
      exact ⟨n + 1, by rw [List.replicate_succ', List.cons_append]⟩
  · have hne : (t == u) = false := beq_false_of_ne (Ne.symm hut)
    rw [if_neg hut, hne, Bool.false_or]
    exact h t

/-- The commits and rollbacks of a transaction are answered as it was completed or not. -/
theorem completes_step (h : ∀ t, Completes (w.session.isCompleted t) (log.completions t))
    (event : Event) (t : Transaction) : Completes ((w.step event).2.session.isCompleted t)
      (Log.completions (log ++ [(w.effect event, (w.step event).1)]) t) := by
  have hstep := w.step_effect event
  rw [completions_concat]
  cases heffect : w.effect event with
  | opens connection =>
    rw [heffect] at hstep
    rw [hstep, Session.isCompleted, Session.completed_openConnection]
    exact h t
  | closes connection =>
    rw [heffect] at hstep
    rw [hstep]
    exact h t
  | begins connection u =>
    rw [heffect] at hstep
    obtain ⟨session, hbegin, hstep⟩ := hstep
    rw [hstep, (Session.beginTransaction_eq_ok hbegin).2]
    exact h t
  | completes u =>
    rw [heffect] at hstep
    dsimp only at hstep ⊢
    rw [hstep]
    exact completes_complete h u t
  | other =>
    rw [heffect] at hstep
    rw [Session.isCompleted, hstep.completed]
    exact h t

/-- The transactions that were begun are different from each other, and clients have no others. -/
theorem begun_step (h : Tracks log w) (event : Event) :
    let later := log ++ [(w.effect event, (w.step event).1)]
    (∀ c t, (c, t) ∈ Log.begun later →
      t.connection = c ∧ t.id < (w.step event).2.session.nextId) ∧
    ((Log.begun later).map Prod.snd).Nodup ∧
    ∀ t ∈ (w.step event).2.transactions, (t.connection, t) ∈ Log.begun later := by
  intro later
  have hstep := w.step_effect event
  have hlater : Log.begun later = _ := begun_concat (w.effect event)
  rw [hlater]
  cases heffect : w.effect event with
  | opens connection =>
    rw [heffect] at hstep
    refine ⟨?_, h.nodup, ?_⟩ <;> rw [hstep]
    · rw [Session.nextId_openConnection]
      exact h.begun
    · exact h.transactions
  | closes connection =>
    rw [heffect] at hstep
    rw [hstep]
    exact ⟨h.begun, h.nodup, h.transactions⟩
  | completes t =>
    rw [heffect] at hstep
    rw [hstep]
    rcases w.complete_cases t with ⟨-, hcomplete⟩ | ⟨-, hcomplete⟩ <;> rw [hcomplete] <;>
      exact ⟨h.begun, h.nodup, h.transactions⟩
  | begins connection t =>
    rw [heffect] at hstep
    obtain ⟨session, hbegin, hstep⟩ := hstep
    obtain ⟨ht, hsession⟩ := Session.beginTransaction_eq_ok hbegin
    rw [hstep, hsession]
    refine ⟨fun c u hu => ?_, ?_, fun u hu => ?_⟩
    · rcases List.mem_append.mp hu with hu | hu
      · exact ⟨(h.begun c u hu).1, Nat.lt_succ_of_lt (h.begun c u hu).2⟩
      · cases List.mem_singleton.mp hu
        exact ⟨by rw [ht], by rw [ht]; exact Nat.lt_succ_self _⟩
    · -- the new transaction has a number that none before it has
      have hnew : ∀ u ∈ log.begun.map Prod.snd, u ≠ t := by
        rintro u hu rfl
        obtain ⟨⟨c, u⟩, hmem, rfl⟩ := List.mem_map.mp hu
        have hless := (h.begun c u hmem).2
        rw [show u = _ from ht] at hless
        exact Nat.lt_irrefl _ hless
      rw [List.map_append, List.nodup_append]
      refine ⟨h.nodup, List.pairwise_singleton _ _, fun u hu v hv => ?_⟩
      rw [List.mem_singleton.mp hv]
      exact hnew u hu
    · rcases List.mem_append.mp hu with hu | hu
      · exact List.mem_append_left _ (h.transactions u hu)
      · rw [List.mem_singleton.mp hu, ht]
        exact List.mem_append_right _ (List.mem_singleton_self _)
  | other =>
    rw [heffect] at hstep
    refine ⟨fun c t ht => ?_, h.nodup, fun t ht => h.transactions t (hstep.transactions t ht)⟩
    exact ⟨(h.begun c t ht).1, Nat.lt_of_lt_of_le (h.begun c t ht).2 hstep.nextId⟩

theorem tracks_empty : Tracks [] empty where
  isOpen c := by simp [empty, Session.empty, Session.isOpen, Log.IsOpen, Log.switches]
  completes t := rfl
  begun c t h := by cases h
  nodup := List.nodup_nil
  transactions t h := by cases h

theorem Tracks.step (h : Tracks log w) (event : Event) :
    Tracks (log ++ [(w.effect event, (w.step event).1)]) (w.step event).2 :=
  have hbegun := begun_step h event
  ⟨isOpen_step h.isOpen event, completes_step h.completes event, hbegun.1, hbegun.2.1, hbegun.2.2⟩

theorem Tracks.run (h : Tracks log w) (events : List Event) :
    Tracks (log ++ w.log events) (w.run events) := by
  induction events generalizing log w with
  | nil => rwa [Clients.log, List.append_nil]
  | cons event events ih =>
    have hlater := ih (h.step event)
    rwa [List.append_assoc] at hlater

/-! ## Commands -/

end Clients

namespace Command

variable {command later : Command} {s : Session}

/-- If the command holds a connection and a transaction, they belong together. -/
def Fits (command : Command) : Prop :=
  ∀ c t, command.connection = some c → command.transaction = some t → t.connection = c

theorem fits_of_connection_eq_none (h : command.connection = none) : command.Fits := by
  intro c t hc
  cases h.symm.trans hc

theorem fits_of_transaction_eq_none (h : command.transaction = none) : command.Fits := by
  intro c t _ ht
  cases h.symm.trans ht

/-- A changed connection keeps only a transaction of its own. -/
theorem fits_setConnection (command : Command) (connection : Option Connection) :
    (command.setConnection connection).Fits ∧
      ∀ t ∈ (command.setConnection connection).transaction, t ∈ command.transaction := by
  cases connection with
  | none =>
    refine ⟨fits_of_connection_eq_none rfl, fun t ht => ?_⟩
    cases htransaction : command.transaction with
    | none => simp [setConnection, htransaction] at ht
    | some u => simpa [setConnection, htransaction] using ht
  | some connection =>
    cases htransaction : command.transaction with
    | none =>
      have hnone : (command.setConnection (some connection)).transaction = none := by
        simp [setConnection, htransaction]
      rw [hnone]
      exact ⟨fits_of_transaction_eq_none hnone, fun t ht => ht⟩
    | some t =>
      have hsome : (command.setConnection (some connection)).transaction =
          if t.connection = connection then some t else none := by
        simp [setConnection, htransaction]
      by_cases hsame : t.connection = connection
      · rw [if_pos hsame] at hsome
        refine ⟨fun c u hc hu => ?_, fun u hu => hsome ▸ hu⟩
        cases hc
        cases hsome.symm.trans hu
        exact hsame
      · rw [if_neg hsame] at hsome
        rw [hsome]
        refine ⟨fits_of_transaction_eq_none hsome, ?_⟩
        intro t ht
        cases ht

/-- Only a transaction of the connection can be set. -/
theorem fits_of_setTransaction {transaction : Option Transaction}
    (h : command.setTransaction s transaction = .ok later) :
    later.Fits ∧ later.transaction = transaction := by
  unfold setTransaction at h
  split at h
  · cases h
    exact ⟨fits_of_transaction_eq_none rfl, rfl⟩
  · rename_i t connection hconnection
    obtain ⟨_, husable, h⟩ := bind_eq_ok.mp h
    cases h
    refine ⟨fun c u hc hu => ?_, rfl⟩
    cases hu
    obtain rfl : connection = c := Option.some.inj (hconnection.symm.trans hc)
    exact Session.connection_of_checkUsable husable
  · rename_i t hconnection
    split at h <;> cases h
    exact ⟨fits_of_connection_eq_none hconnection, rfl⟩

end Command

namespace Clients

variable {w : Clients}

theorem mem_of_optional {α : Type} {handles : List α} {place : Option Nat} {given : Option α}
    (h : optional handles place = some given) : ∀ a ∈ given, a ∈ handles := by
  cases place with
  | none =>
    cases h
    intro a ha
    cases ha
  | some place =>
    obtain ⟨b, hb, rfl⟩ := Option.map_eq_some_iff.mp h
    rintro _ ⟨⟩
    exact List.mem_of_getElem? hb

/-- The commands hold transactions that begun on their connections, and that clients have. -/
def CommandsFit (w : Clients) : Prop :=
  ∀ command ∈ w.commands, command.Fits ∧ ∀ t ∈ command.transaction, t ∈ w.transactions

theorem CommandsFit.step (h : w.CommandsFit) (event : Event) : (w.step event).2.CommandsFit := by
  have hadd : ∀ added : List Command, (∀ command ∈ added, command.Fits ∧
      ∀ t ∈ command.transaction, t ∈ w.transactions) →
      CommandsFit { w with commands := w.commands ++ added } := fun added hadded =>
    List.forall_mem_append.mpr ⟨h, hadded⟩
  have hset : ∀ i command, (command.Fits ∧ ∀ t ∈ command.transaction, t ∈ w.transactions) →
      CommandsFit { w with commands := w.commands.set i command } := by
    intro i command hcommand other hother
    rcases List.mem_or_eq_of_mem_set hother with hother | rfl
    · exact h other hother
    · exact hcommand
  have hmore : ∀ session more, CommandsFit { w with
      session := session, transactions := w.transactions ++ more } := fun session more command hc =>
    ⟨(h command hc).1, fun t ht => List.mem_append_left _ ((h command hc).2 t ht)⟩
  cases event with
  | newCommand text =>
    refine hadd _ fun command hcommand => ?_
    rw [List.mem_singleton.mp hcommand]
    refine ⟨Command.fits_of_connection_eq_none rfl, ?_⟩
    intro t ht
    cases ht
  | createCommand i text =>
    simp only [Clients.step]
    split
    · refine hadd _ fun command hcommand => ?_
      rw [List.mem_singleton.mp hcommand]
      obtain ⟨hfits, htransaction⟩ := (Command.ofText text).fits_setConnection _
      refine ⟨hfits, fun t ht => ?_⟩
      cases htransaction t ht
    · exact h
  | cloneCommand i =>
    refine hadd _ fun command hcommand => ?_
    exact h command (List.mem_of_getElem? (Option.mem_toList.mp hcommand))
  | editCommand i text parameters =>
    simp only [Clients.step]
    split
    · rename_i command hcommand
      exact hset i _ (h command (List.mem_of_getElem? hcommand))
    · exact h
  | setConnection i connection =>
    simp only [Clients.step]
    split
    · rename_i command connection hcommand hconnection
      obtain ⟨hfits, htransaction⟩ := command.fits_setConnection connection
      have hold := (h command (List.mem_of_getElem? hcommand)).2
      exact hset i _ ⟨hfits, fun t ht => hold t (htransaction t ht)⟩
    · exact h
  | setTransaction i transaction =>
    simp only [Clients.step]
    split
    · rename_i command given hcommand hgiven
      split
      · rename_i later hlater
        obtain ⟨hfits, htransaction⟩ := Command.fits_of_setTransaction hlater
        refine hset i _ ⟨hfits, fun t ht => ?_⟩
        rw [htransaction] at ht
        exact mem_of_optional hgiven t ht
      · exact h
    · exact h
  | beginTransaction i =>
    simp only [Clients.step]
    split
    · split
      · exact hmore _ _
      · exact h
    · exact h
  | cloneTransaction i => exact hmore _ _
  | commit i | rollback i =>
    simp only [Clients.step]
    split
    · rcases w.complete_cases _ with ⟨-, hcomplete⟩ | ⟨-, hcomplete⟩ <;> rw [hcomplete] <;> exact h
    · exact h
  | _ =>
    simp only [Clients.step]
    repeat' split
    all_goals exact h

/-! ## Executions -/

end Clients

/-- What stands in the way of an execution, in the order in which it is looked for. -/
theorem Command.prepare_eq {command : Command} (h : command.Fits) (s : Session) (call : Call) :
    command.prepare s call =
      match command.connection with
      | none => .error (.connectionNotInitialized call)
      | some connection =>
        if s.isOpen connection then
          if command.transaction.any s.isCompleted then .error .transactionMismatch
          else command.parameters.bindings.map (connection, ·)
        else .error (.connectionClosed call) := by
  unfold prepare
  cases hconnection : command.connection with
  | none => rfl
  | some connection =>
    have hbindings : (do
        let bindings ← command.parameters.bindings
        Except.ok (connection, bindings)) = command.parameters.bindings.map (connection, ·) := by
      cases command.parameters.bindings <;> rfl
    dsimp only
    rw [hbindings]
    split
    · cases htransaction : command.transaction with
      | none => rfl
      | some t =>
        dsimp only [Option.any]
        rw [Session.checkUsable_of_connection (h connection t hconnection htransaction)]
        by_cases hcompleted : s.isCompleted t = true
        · rw [if_pos hcompleted, if_pos hcompleted]
          rfl
        · rw [if_neg hcompleted, if_neg hcompleted]
          rfl
    · rfl

namespace Clients

variable {w : Clients} {log : Log}

/-- Why a call refuses to execute a command after what has happened: the first reason that applies,
or none. -/
def Log.refusal? (log : Log) (command : Command) (call : Call) : Option Error :=
  match command.connection with
  | none => some (.connectionNotInitialized call)
  | some connection =>
    if log.IsOpen connection then
      if command.transaction.any fun t => !(log.completions t).isEmpty then
        some .transactionMismatch
      else command.parameters.findSome? Parameter.failure?
    else some (.connectionClosed call)

/-- The call with which an event executes a command, and the place of the command. -/
def Event.execution? : Event → Option (Call × Nat)
  | .executeNonQuery i => some (.executeNonQuery, i)
  | .executeReader i => some (.executeReader, i)
  | .executeScalar i => some (.executeScalar, i)
  | _ => none

/-- An execution is told as its call does it. -/
theorem step_execution {event : Event} {call : Call} {i : Nat} {command : Command}
    (hevent : event.execution? = some (call, i)) (hcommand : w.commands[i]? = some command) :
    w.step event = (.ofResult (.ofOutcomes call) (command.execute w.session call).1,
      { w with session := (command.execute w.session call).2 }) := by
  cases event with
  | executeNonQuery place | executeReader place | executeScalar place =>
    cases hevent
    simp only [Clients.step, hcommand, Command.executeNonQuery, Command.executeReader,
      Command.executeScalar]
    cases (command.execute w.session _).1 <;> rfl
  | _ => cases hevent

theorem Tracks.isCompleted_eq (h : Tracks log w) (t : Transaction) :
    w.session.isCompleted t = !(log.completions t).isEmpty := by
  have hanswers := h.completes t
  cases hcompleted : w.session.isCompleted t with
  | false =>
    rw [hcompleted] at hanswers
    rw [show log.completions t = [] from hanswers]
    rfl
  | true =>
    rw [hcompleted] at hanswers
    obtain ⟨n, hn⟩ := hanswers
    rw [hn]
    rfl

/-- A command is executed unless something stands in its way that the log tells of. -/
theorem execute_cases (h : Tracks log w) {command : Command} (hfits : command.Fits) (call : Call) :
    (∃ failure, log.refusal? command call = some failure ∧
      command.execute w.session call = (.error failure, w.session)) ∨
    log.refusal? command call = none ∧ ∃ connection bindings, command.connection = some connection ∧
      command.parameters.bindings = .ok bindings ∧
      let run := (w.session.server connection.server).execute command.text bindings
      command.execute w.session call =
        (run.result, w.session.withCatalog connection.server run.server.catalog) := by
  have hcompleted : w.session.isCompleted = fun t => !(log.completions t).isEmpty :=
    funext h.isCompleted_eq
  unfold Command.execute Log.refusal?
  rw [Command.prepare_eq hfits, hcompleted]
  cases hconnection : command.connection with
  | none => exact .inl ⟨_, rfl, rfl⟩
  | some connection =>
    dsimp only
    by_cases hopen : log.IsOpen connection
    · rw [if_pos hopen, if_pos ((h.isOpen connection).mpr hopen)]
      split
      · exact .inl ⟨_, rfl, rfl⟩
      · rcases command.parameters.bindings_cases with ⟨failure, hfailure, hbindings⟩ |
          ⟨hnone, bindings, hbindings⟩
        · rw [hfailure, hbindings]
          exact .inl ⟨failure, rfl, rfl⟩
        · rw [hnone, hbindings]
          exact .inr ⟨rfl, connection, bindings, rfl, rfl, rfl⟩
    · rw [if_neg hopen, if_neg (fun hsession => hopen ((h.isOpen connection).mp hsession))]
      exact .inl ⟨_, rfl, rfl⟩

/-! ## All events -/

theorem commandsFit_empty : empty.CommandsFit := List.forall_mem_nil _

theorem CommandsFit.run (h : w.CommandsFit) (events : List Event) : (w.run events).CommandsFit := by
  induction events generalizing w with
  | nil => exact h
  | cons event events ih => exact ih (h.step event)

/-- What clients may rely on, whatever has happened and through whatever handles.

A command that holds a connection and a transaction holds one that was begun on this connection;
different transactions are begun each time. Of all commits and rollbacks of a transaction the first
succeeds, and all later ones are told that it is completed.

An execution fails, and changes nothing, if its command has no connection, if the connection has
not been opened or has been closed since, if the transaction was committed or rolled back, or if a
parameter cannot be converted, whichever of these comes first. Otherwise it runs the text, and
what the text does to the tables of the server of the connection is all that it changes. -/
theorem protocol (events : List Event) :
    let w := empty.run events
    let log := empty.log events
    (∀ command ∈ w.commands, ∀ c t, command.connection = some c → command.transaction = some t →
      (c, t) ∈ log.begun) ∧
    (log.begun.map Prod.snd).Nodup ∧
    (∀ t, log.completions t = [] ∨
      ∃ n, log.completions t = .done :: List.replicate n (.failed .transactionCompleted)) ∧
    ∀ event call i command, event.execution? = some (call, i) → w.commands[i]? = some command →
      match log.refusal? command call with
      | some failure => w.step event = (.failed failure, w)
      | none => ∃ connection bindings, command.connection = some connection ∧
        command.parameters.bindings = .ok bindings ∧
        let run := (w.session.server connection.server).execute command.text bindings
        w.step event = (.ofResult (.ofOutcomes call) run.result,
          { w with session := w.session.withCatalog connection.server run.server.catalog }) := by
  intro w log
  have htracks : Tracks log w := tracks_empty.run events
  have hcommands : w.CommandsFit := commandsFit_empty.run events
  refine ⟨fun command hcommand c t hc ht => ?_, htracks.nodup, fun t => ?_, ?_⟩
  · obtain ⟨hfits, hmine⟩ := hcommands command hcommand
    have hbegun := htracks.transactions t (hmine t ht)
    rwa [hfits c t hc ht] at hbegun
  · have hanswers := htracks.completes t
    cases hcompleted : w.session.isCompleted t with
    | false => exact .inl (by rwa [hcompleted] at hanswers)
    | true => exact .inr (by rwa [hcompleted] at hanswers)
  · intro event call i command hevent hcommand
    have hfits := (hcommands command (List.mem_of_getElem? hcommand)).1
    rw [step_execution hevent hcommand]
    rcases execute_cases htracks hfits call with ⟨failure, hrefused, hexecute⟩ |
      ⟨hnone, connection, bindings, hconnection, hbindings, hexecute⟩
    · rw [hrefused, hexecute]
      rfl
    · rw [hnone]
      exact ⟨connection, bindings, hconnection, hbindings, by rw [hexecute]⟩

/-- A connection is closed through a copy of the handle that the command was made with. -/
example : ((empty.run [.newServer {}, .newConnection 0, .cloneConnection 0, .openConnection 0,
    .createCommand 0 "SELECT 1", .closeConnection 1]).step (.executeScalar 0)).1 =
      .failed (.connectionClosed .executeScalar) := rfl

end Clients
end TransactSql
