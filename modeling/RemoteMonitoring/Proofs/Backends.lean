/-
Module: RemoteMonitoring.Proofs.Backends
Purpose: The two platforms keep a configuration alike: with the registry and with the file the
  same thresholds are in force after the same messages and restarts.
Trusted boundary: the JSON library is a parameter
Main exports: RegistryClient.Saved, backends_agree, registry_settles
-/
import RemoteMonitoring.Proofs.Configuration
import RemoteMonitoring.Proofs.Registry
import RemoteMonitoring.System.Backends

namespace RemoteMonitoring

open ByteText
open Scaling (unscale32_scale_mod_unit unscale64_scale_mod_unit)

namespace RegistryClient

/-- The registry holds what the last write made of the configuration in force. -/
structure Saved (s : RegistryClient) : Prop where
  storable : s.logger.config.Storable
  complete : Config.Complete s.registry
    (s.logger.config.configEntries.map ConfigEntry.convertBeforeWrite)

theorem saved_writeRegistry {config : Config} (storable : config.Storable) (logQueue : LogQueue)
    {registry : Registry} (opens : registry.opens = true) :
    Saved ⟨⟨config, logQueue⟩, config.writeRegistry registry⟩ :=
  ⟨storable, Config.complete_writeRegistry opens storable⟩

/-- What a restart puts into force. -/
def rounded (config : Config) : Config :=
  ⟨config.configEntries.map fun entry => entry.convertBeforeWrite.convertAfterRead⟩

theorem storable_rounded {config : Config} (storable : config.Storable) :
    (rounded config).Storable := by
  constructor
  · rw [rounded, List.length_map]
    exact storable.1
  · intro entry member
    obtain ⟨other, inside, rfl⟩ := List.mem_map.mp member
    exact storable.2 other inside

section Steps

variable {json : JsonLibrary} {serverIp : Bytes} {serverPort : UInt16} {s : RegistryClient}

/-- A client that comes up has written its configuration. -/
theorem start_cases {unset : Nat → Config.Unset} {logQueue : LogQueue} {registry : Registry}
    (starts : start unset logQueue registry = .ok s) :
    (∃ after, Config.readRegistry unset ⟨[]⟩ registry = .ok (0, s.logger.config, after) ∧
        s = ⟨⟨s.logger.config, logQueue⟩, s.logger.config.writeRegistry after⟩) ∨
      ∃ code read after, code ≠ 0 ∧
        Config.readRegistry unset ⟨[]⟩ registry = .ok (code, read, after) ∧
        s = ⟨⟨Config.defaultConfig, logQueue⟩, Config.defaultConfig.writeRegistry
          (Config.defaultConfig.writeRegistry after)⟩ := by
  unfold start startConfig at starts
  cases reads : Config.readRegistry unset ⟨[]⟩ registry with
  | error e => simp [reads, bind, Except.bind] at starts
  | ok outcome =>
      obtain ⟨code, read, after⟩ := outcome
      by_cases zero : code = 0
      · simp only [reads, zero, bind, Except.bind, pure, Except.pure, ne_eq, not_true_eq_false,
          if_false, Except.ok.injEq] at starts
        subst zero
        rw [← starts]
        exact Or.inl ⟨after, rfl, rfl⟩
      · simp only [reads, zero, bind, Except.bind, pure, Except.pure, ne_eq, not_false_eq_true,
          if_true, Except.ok.injEq] at starts
        exact Or.inr ⟨code, read, after, zero, rfl, starts.symm⟩

/-- From a registry that holds the configuration, the client comes up with it in whole units. -/
theorem restart_eq (saved : Saved s) (junkAckId : UInt64) (junk : Nat → Indeterminate)
    (unset : Nat → Config.Unset) :
    ∃ after, s.restart junkAckId junk unset = .ok after ∧ Saved after ∧
      after.logger = ⟨rounded s.logger.config,
        LogQueue.ofFiles junkAckId junk s.logger.logQueue.logFile s.logger.logQueue.ackFile⟩ := by
  have reads : ∃ after, Config.readRegistry unset ⟨[]⟩ s.registry =
      .ok (0, rounded s.logger.config, after) := by
    apply Config.readRegistry_ok_iff.mpr
    refine ⟨_, saved.complete, ?_⟩
    rw [List.map_map]
    rfl
  obtain ⟨after, reads⟩ := reads
  have opens : after.opens = true := by
    rw [(Config.unchanged_readRegistry reads).opens]
    exact saved.complete.opens
  have restarts : s.restart junkAckId junk unset =
      .ok ⟨⟨rounded s.logger.config, LogQueue.ofFiles junkAckId junk s.logger.logQueue.logFile
        s.logger.logQueue.ackFile⟩, (rounded s.logger.config).writeRegistry after⟩ := by
    simp only [restart, start, startConfig, reads, bind, Except.bind, pure, Except.pure, ne_eq,
      not_true_eq_false, if_false]
  exact ⟨_, restarts, saved_writeRegistry (storable_rounded saved.storable) _ opens, rfl⟩

/-- The subscriber puts an accepted configuration into force, and ignores any other message. -/
theorem recvConfig_cases (json : JsonLibrary) (serverIp : Bytes) (serverPort : UInt16)
    (event : NetworkRecvEvent) (s : RegistryClient) :
    match pushedEntries json event with
    | some entries => ∃ sends, recvConfig json serverIp serverPort event s =
        .ok (s.setConfig ⟨entries⟩, sends)
    | none => (∃ error, recvConfig json serverIp serverPort event s = .error error) ∨
        recvConfig json serverIp serverPort event s = .ok (s, []) := by
  unfold pushedEntries recvConfig
  cases decoded : readString (.ofBytes event.payload) with
  | error error => exact Or.inl ⟨error, rfl⟩
  | ok outcome =>
      obtain ⟨message, rest⟩ := outcome
      simp only [bind, Except.bind]
      cases front : (ascii "config ").isPrefixOf message with
      | false => exact Or.inr rfl
      | true =>
          simp only [if_true]
          cases parses : json.parse (message.drop (ascii "config ").length) with
          | none => exact Or.inr rfl
          | some entries =>
              have reply := writeString_eq_ok.mpr
                ⟨(by decide : (ascii "config ok").length < 2 ^ 32), rfl⟩
              simp only [reply, pure, Except.pure]
              exact ⟨_, rfl⟩

/-- An accepted message is in force as it was parsed, any other leaves configuration and registry
as they are; either way the queue may have taken an ack. -/
theorem step_recv_cases (event : NetworkRecvEvent) (junkId : UInt64) :
    s.step json serverIp serverPort (.recv event junkId) =
      match pushedEntries json event with
      | some entries => ⟨⟨⟨entries⟩, followedQueue junkId event.payload s.logger.logQueue⟩,
          (⟨entries⟩ : Config).writeRegistry ((⟨entries⟩ : Config).writeRegistry s.registry)⟩
      | none => ⟨⟨s.logger.config, followedQueue junkId event.payload s.logger.logQueue⟩,
          s.registry⟩ := by
  unfold step publishRecv ClientLogger.onNetworkRecv followedQueue
  cases acks : ackSubscriber junkId event.payload s.logger.logQueue with
  | error e => simp only [pushedEntries_of_error acks, acks, bind, Except.bind]
  | ok logQueue =>
      have received := recvConfig_cases json serverIp serverPort event
        { s with logger := { s.logger with logQueue } }
      simp only [acks, bind, Except.bind, pure, Except.pure]
      cases pushed : pushedEntries json event with
      | some entries =>
          rw [pushed] at received
          obtain ⟨sends, received⟩ := received
          simp only [received, setConfig]
      | none =>
          rw [pushed] at received
          rcases received with ⟨error, received⟩ | received
          · simp only [received]
          · simp only [received]

/-- Whatever comes in, the registry afterwards holds the configuration in force. -/
theorem saved_step (saved : Saved s) {event : RegistryEvent} (fits : PushStorable json event) :
    Saved (s.step json serverIp serverPort event) := by
  cases event with
  | recv event junkId =>
      have received := @step_recv_cases json serverIp serverPort s event junkId
      cases pushed : pushedEntries json event with
      | none =>
          rw [pushed] at received
          rw [received]
          exact ⟨saved.storable, saved.complete⟩
      | some entries =>
          rw [pushed] at received
          rw [received]
          have storable := fits entries pushed
          exact saved_writeRegistry storable _
            (Config.opens_writeRegistry saved.complete.opens storable)
  | restart junkAckId junk unset =>
      obtain ⟨after, restarts, savedAfter, _⟩ := restart_eq saved junkAckId junk unset
      simp only [step, restarts]
      exact savedAfter

/-- And so it does after any messages and restarts. -/
theorem saved_run (saved : Saved s) {events : List RegistryEvent}
    (fits : ∀ event ∈ events, PushStorable json event) :
    Saved (s.run json serverIp serverPort events) := by
  induction events generalizing s with
  | nil => exact saved
  | cons event later ih =>
      exact ih (saved_step saved (fits event List.mem_cons_self))
        fun other member => fits other (List.mem_cons_of_mem event member)

/-- What comes up from a registry that opens is saved. -/
theorem saved_start {unset : Nat → Config.Unset} {logQueue : LogQueue} {registry : Registry}
    (opens : registry.opens = true) (starts : start unset logQueue registry = .ok s)
    (storable : s.logger.config.Storable) : Saved s := by
  rcases start_cases starts with ⟨after, reads, same⟩ | ⟨code, read, after, _, reads, same⟩
  · rw [same]
    apply saved_writeRegistry storable
    rw [(Config.unchanged_readRegistry reads).opens]
    exact opens
  · have default : Config.defaultConfig.Storable := by decide +kernel
    rw [same]
    apply saved_writeRegistry default
    apply Config.opens_writeRegistry _ default
    rw [(Config.unchanged_readRegistry reads).opens]
    exact opens

/-- A start does not look at the queue. -/
theorem start_logQueue {unset : Nat → Config.Unset} {logQueue : LogQueue} {registry : Registry}
    (starts : start unset logQueue registry = .ok s) : s.logger.logQueue = logQueue := by
  rcases start_cases starts with ⟨after, reads, same⟩ | ⟨code, read, after, _, reads, same⟩
  · rw [same]
  · rw [same]

end Steps

/-! ### Whole units stay -/

/-- Whole units stay as they are. -/
theorem rounded_rounded (config : Config) : rounded (rounded config) = rounded config := by
  unfold rounded
  rw [List.map_map]
  refine congrArg Config.mk (List.map_congr_left ?_)
  intro entry _
  have aligned : entry.convertBeforeWrite.convertAfterRead.Aligned :=
    ⟨unscale32_scale_mod_unit entry.cpuUsage cpuUnit,
      unscale64_scale_mod_unit entry.memUsage memUnit,
      unscale64_scale_mod_unit entry.diskUsage diskUnit,
      unscale64_scale_mod_unit entry.networkUsage networkUnit⟩
  exact (ConfigEntry.convertBeforeWrite_convertAfterRead_iff _).mpr aligned

end RegistryClient

/-! ### The two platforms -/

section Agree

variable {json : JsonLibrary} {serverIp : Bytes} {serverPort : UInt16}

/-- Neither does it with a file. -/
theorem logQueue_start {logQueue : LogQueue} {file : File} {s : ConfiguredClient}
    (starts : ConfiguredClient.start json logQueue file = .ok s) :
    s.logger.logQueue = logQueue := by
  obtain ⟨_, rfl⟩ | ⟨_, _, _, _, rfl⟩ := start_cases starts
  · rfl
  · rfl

/-- One message or restart, on both platforms at once: the ack subscribers do the same, an
accepted configuration is in force on both, and both restarts round it. -/
theorem agree_step (roundTrips : json.RoundTrips) {s : ConfiguredClient} {t : RegistryClient}
    (savedFile : Saved json s) (saved : RegistryClient.Saved t) (same : s.logger = t.logger)
    (event : RegistryEvent) :
    (s.step json serverIp serverPort event.toConfigEvent).logger =
      (t.step json serverIp serverPort event).logger := by
  cases event with
  | recv event junkId =>
      rw [RegistryEvent.toConfigEvent, step_recv_cases, RegistryClient.step_recv_cases, same]
      cases pushedEntries json event with
      | none => rfl
      | some entries => rfl
  | restart junkAckId junk unset =>
      obtain ⟨after, restarts, _, logger⟩ := RegistryClient.restart_eq saved junkAckId junk unset
      obtain ⟨started, starts, _, entries⟩ := restart_eq roundTrips savedFile junkAckId junk
      have queue := logQueue_start starts
      have config : started.logger.config = RegistryClient.rounded t.logger.config := by
        rw [RegistryClient.rounded, ← same, ← entries]
      have both : started.logger = after.logger := by
        rw [logger, ← config, ← same, ← queue]
      simp only [RegistryEvent.toConfigEvent, ConfiguredClient.step, RegistryClient.step, starts,
        restarts, both]

/-- So they agree after any number of them. -/
theorem agree_run (roundTrips : json.RoundTrips) {s : ConfiguredClient} {t : RegistryClient}
    (savedFile : Saved json s) (saved : RegistryClient.Saved t) (same : s.logger = t.logger)
    {events : List RegistryEvent} (fits : ∀ event ∈ events, PushStorable json event) :
    (s.run json serverIp serverPort (events.map RegistryEvent.toConfigEvent)).logger =
      (t.run json serverIp serverPort events).logger := by
  induction events generalizing s t with
  | nil => exact same
  | cons event later ih =>
      exact ih (saved_step serverIp serverPort roundTrips savedFile event.toConfigEvent)
        (RegistryClient.saved_step saved (fits event List.mem_cons_self))
        (agree_step roundTrips savedFile saved same event)
        fun other member => fits other (List.mem_cons_of_mem event member)

/-- Two clients that came up with the same thresholds, one from a file and one from a registry,
have the same thresholds and the same queue after the same messages, acks among them, and
restarts. -/
theorem backends_agree (roundTrips : json.RoundTrips) {logQueue : LogQueue} {file : File}
    (writable : file.writable = true) {s : ConfiguredClient}
    (starts : ConfiguredClient.start json logQueue file = .ok s) {registry : Registry}
    (opens : registry.opens = true) {unset : Nat → Config.Unset} {t : RegistryClient}
    (startsToo : RegistryClient.start unset logQueue registry = .ok t)
    (same : s.logger.config = t.logger.config) (storable : t.logger.config.Storable)
    {events : List RegistryEvent} (fits : ∀ event ∈ events, PushStorable json event) :
    (s.run json serverIp serverPort (events.map RegistryEvent.toConfigEvent)).logger =
      (t.run json serverIp serverPort events).logger := by
  have savedFile := saved_start roundTrips writable starts
  have saved := RegistryClient.saved_start opens startsToo storable
  have logger : s.logger = t.logger := by
    have queues := (logQueue_start starts).trans (RegistryClient.start_logQueue startsToo).symm
    cases one : s.logger with
    | mk config queue =>
        cases two : t.logger with
        | mk config' queue' =>
            rw [one, two] at same queues
            cases same
            cases queues
            rfl
  exact agree_run roundTrips savedFile saved logger fits

end Agree

/-- The first of any restarts rounds, the others find whole units. -/
theorem RegistryClient.run_restarts {json : JsonLibrary} {serverIp : Bytes} {serverPort : UInt16}
    {s : RegistryClient} (saved : RegistryClient.Saved s)
    (restarts : List (UInt64 × (Nat → Indeterminate) × (Nat → Config.Unset))) :
    (s.run json serverIp serverPort
      (restarts.map fun found => .restart found.1 found.2.1 found.2.2)).logger.config =
        if restarts = [] then s.logger.config else rounded s.logger.config := by
  induction restarts generalizing s with
  | nil => rfl
  | cons found later ih =>
      obtain ⟨after, restarts, savedAfter, logger⟩ :=
        restart_eq saved found.1 found.2.1 found.2.2
      have first : s.step json serverIp serverPort (.restart found.1 found.2.1 found.2.2) =
          after := by
        simp only [step, restarts]
      have rest := ih savedAfter
      rw [logger, rounded_rounded, ite_self] at rest
      rw [List.map_cons, run, List.foldl_cons, first, if_neg (List.cons_ne_nil found later)]
      exact rest

/-- From any registry that the client comes up on, after any messages and restarts: one restart
rounds the thresholds in force to whole units, and any number of restarts does the same as one. -/
theorem registry_settles {json : JsonLibrary} {serverIp : Bytes} {serverPort : UInt16}
    {logQueue : LogQueue} {registry : Registry} (opens : registry.opens = true)
    {unset : Nat → Config.Unset} {s : RegistryClient}
    (starts : RegistryClient.start unset logQueue registry = .ok s)
    (storable : s.logger.config.Storable) {events : List RegistryEvent}
    (fits : ∀ event ∈ events, PushStorable json event)
    {restarts : List (UInt64 × (Nat → Indeterminate) × (Nat → Config.Unset))}
    (again : restarts ≠ []) :
    let before := s.run json serverIp serverPort events
    (before.run json serverIp serverPort
      (restarts.map fun found => .restart found.1 found.2.1 found.2.2)).logger.config =
        RegistryClient.rounded before.logger.config := by
  have saved : RegistryClient.Saved (s.run json serverIp serverPort events) :=
    RegistryClient.saved_run (RegistryClient.saved_start opens starts storable) fits
  have all := @RegistryClient.run_restarts json serverIp serverPort _ saved restarts
  rw [if_neg again] at all
  exact all

/-! ### A sample -/

def emptyRegistry : Registry := ⟨KeyTree.empty, true⟩

/-- A first start, on an empty registry. -/
def startedOnRegistry : RegistryClient :=
  ⟨⟨Config.defaultConfig, sampleQueue⟩, Config.defaultConfig.writeRegistry
    (Config.defaultConfig.writeRegistry (Config.opened emptyRegistry))⟩

theorem start_startedOnRegistry :
    RegistryClient.start (fun _ => default) sampleQueue emptyRegistry = .ok startedOnRegistry := by
  have opens : emptyRegistry.opens = true := rfl
  have reads : Config.readRegistry (fun _ => default) ⟨[]⟩ emptyRegistry =
      .ok (1, ⟨[]⟩, Config.opened emptyRegistry) := by
    rw [Config.readRegistry_of_opens opens]
    rfl
  simp only [RegistryClient.start, RegistryClient.startConfig, reads, bind, Except.bind, pure,
    Except.pure, ne_eq, one_ne_zero, not_false_eq_true, if_true]
  rfl

/-- An ack, and the push of the sample text. -/
def pushRegistryEvents : List RegistryEvent :=
  [.recv ⟨ascii "10.0.0.1", 12345, ackPayload 1⟩ 0,
    .recv ⟨ascii "10.0.0.1", 12345, samplePush.payload⟩ 0]

theorem pushedEntries_samplePush :
    pushedEntries sampleJson ⟨ascii "10.0.0.1", 12345, samplePush.payload⟩ =
      some [⟨ascii "chrome.exe", 10, 200, 1, 500⟩] := by decide +kernel

theorem pushRegistryEvents_storable :
    ∀ event ∈ pushRegistryEvents, PushStorable sampleJson event := by
  have ack : pushedEntries sampleJson ⟨ascii "10.0.0.1", 12345, ackPayload 1⟩ = none := by
    decide +kernel
  intro event member
  rcases List.mem_cons.mp member with rfl | later
  · intro entries pushed
    rw [ack] at pushed
    cases pushed
  · rw [List.mem_singleton.mp later]
    intro entries pushed
    rw [pushedEntries_samplePush] at pushed
    cases pushed
    decide +kernel

/-- Then a restart. -/
def sampleRegistryEvents : List RegistryEvent :=
  pushRegistryEvents ++ [.restart 0 (fun _ => default) fun _ => default]

theorem backends_agree_sample :
    (startedOnRegistry.run sampleJson (ascii "10.0.0.1") 12345
        sampleRegistryEvents).logger.logQueue.ackId = 1 ∧
      (startedSample.run sampleJson (ascii "10.0.0.1") 12345
          (sampleRegistryEvents.map RegistryEvent.toConfigEvent)).logger =
        (startedOnRegistry.run sampleJson (ascii "10.0.0.1") 12345
          sampleRegistryEvents).logger := by
  have fits : ∀ event ∈ sampleRegistryEvents, PushStorable sampleJson event := by
    intro event member
    rcases List.mem_append.mp member with pushed | restarts
    · exact pushRegistryEvents_storable event pushed
    · rw [List.mem_singleton.mp restarts]
      trivial
  have agree := @backends_agree sampleJson (ascii "10.0.0.1") 12345 sampleJson_roundTrips _ _ rfl _
    start_sample _ rfl _ _ start_startedOnRegistry rfl (by decide +kernel) _ fits
  have acked : (startedSample.run sampleJson (ascii "10.0.0.1") 12345
      (sampleRegistryEvents.map RegistryEvent.toConfigEvent)).logger.logQueue.ackId = 1 := by
    decide +kernel
  exact ⟨agree ▸ acked, agree⟩

/-- Each threshold pushed is below its unit, and nothing is left of it after the first restart. -/
theorem registry_settles_sample :
    (startedOnRegistry.run sampleJson (ascii "10.0.0.1") 12345
        pushRegistryEvents).logger.config.configEntries =
          [⟨ascii "chrome.exe", 10, 200, 1, 500⟩] ∧
      (RegistryClient.rounded ⟨[⟨ascii "chrome.exe", 10, 200, 1, 500⟩]⟩).configEntries =
        [⟨ascii "chrome.exe", 0, 0, 0, 0⟩] ∧
      ((startedOnRegistry.run sampleJson (ascii "10.0.0.1") 12345 pushRegistryEvents).run
        sampleJson (ascii "10.0.0.1") 12345
        ([(0, (fun _ => default), fun _ => default), (1, (fun _ => default), fun _ => default)].map
          fun found => .restart found.1 found.2.1 found.2.2)).logger.config =
          RegistryClient.rounded (startedOnRegistry.run sampleJson (ascii "10.0.0.1") 12345
            pushRegistryEvents).logger.config := by
  refine ⟨?_, by decide +kernel, ?_⟩
  · rw [pushRegistryEvents, RegistryClient.run, List.foldl_cons, List.foldl_cons, List.foldl_nil,
      RegistryClient.step_recv_cases, pushedEntries_samplePush]
  · exact @registry_settles sampleJson (ascii "10.0.0.1") 12345 _ _ rfl _ _
      start_startedOnRegistry (by decide +kernel) _ pushRegistryEvents_storable _ (by simp)

end RemoteMonitoring
