import Blip.Cli.Recorder

/-!
# What becomes of the frames, and how a recording ends

Every frame captured is written, refused for want of room, or left behind the last message, and what
`record` prints counts them. Whatever the threads do in between, an end that was reported makes it
return.
-/

namespace Blip.Cli

open Avf (WriterError)

/-- The frames among some messages. -/
def frames {Frame : Type} (messages : List (WriterMessage Frame)) : List (Frame × ℕ) :=
  messages.filterMap fun message =>
    match message with
    | .frame frame timestamp => some (frame, timestamp)
    | .finish => none

namespace Recorder

variable {Frame : Type} {s s' : Recorder Frame}

@[simp] theorem frames_nil : frames ([] : List (WriterMessage Frame)) = [] := rfl

@[simp] theorem frames_frame (frame : Frame) (timestamp : ℕ) (messages : List (WriterMessage Frame)) :
    frames (.frame frame timestamp :: messages) = (frame, timestamp) :: frames messages := rfl

@[simp] theorem frames_finish (messages : List (WriterMessage Frame)) :
    frames (.finish :: messages) = frames messages := rfl

@[simp] theorem frames_append (before after : List (WriterMessage Frame)) :
    frames (before ++ after) = frames before ++ frames after :=
  List.filterMap_append

/-! ## The steps -/

/-- What a step does. -/
def StepSpec (s : Recorder Frame) : RecordStep Frame → Recorder Frame → Prop
  | .interrupt, s' => s' = s.reportEnd .interrupt
  | .captureStopped message, s' => s' = s.reportEnd (.captureError message)
  | .deliver frame elapsed, s' => s.clock ≤ elapsed ∧ s' = s.deliver frame elapsed
  | .write outcome, s' => s.write outcome = some s'
  | .reportError, s' => ∃ error, s.worker = .reporting error ∧
      s' = { s.reportEnd .writerError with worker := .closing (.error error) }
  | .closeReceiver, s' => ∃ result, s.worker = .closing result ∧
      s' = { s with worker := .ended result, messages := [] }
  | label, s' => s.proceed label = some s'

theorem step_spec {label : RecordStep Frame} (h : s.step label = some s') :
    s.phase.hasReturned = false ∧ s.StepSpec label s' := by
  unfold step at h
  rw [Option.ite_none_left_eq_some, Bool.not_eq_true] at h
  obtain ⟨hphase, h⟩ := h
  refine ⟨hphase, ?_⟩
  cases label with
  | interrupt => exact (Option.some.inj h).symm
  | captureStopped message => exact (Option.some.inj h).symm
  | deliver frame elapsed =>
    rw [Option.ite_none_right_eq_some] at h
    exact ⟨h.1, (Option.some.inj h.2).symm⟩
  | write outcome => exact h
  | reportError =>
    dsimp only at h
    split at h
    · rename_i error hworker
      exact ⟨error, hworker, (Option.some.inj h).symm⟩
    · cases h
  | closeReceiver =>
    dsimp only at h
    split at h
    · rename_i result hworker
      exact ⟨result, hworker, (Option.some.inj h).symm⟩
    · cases h
  | start started => exact h
  | receiveEnd => exact h
  | stop stopped => exact h
  | finish => exact h
  | join => exact h

/-! ## Every frame is accounted for -/

/-- `saturating_add(1)` as often as `count` says. -/
def saturated (count : ℕ) : ℕ := min count (2 ^ 64 - 1)

theorem saturatingSucc_saturated (count : ℕ) :
    saturatingSucc (saturated count) = saturated (count + 1) := by
  unfold saturatingSucc saturated
  omega

/-- Where the captured frames are. What the writer has been given is what was taken, but for a frame that
it failed on. -/
structure Accounts (s : Recorder Frame) : Prop where
  captured : s.captured.length = (frames s.sent).length + s.refused + s.unreceived
  order : (frames s.sent).Sublist s.captured
  times : s.captured.Pairwise (·.2 ≤ ·.2)
  clock : ∀ frame ∈ s.captured, frame.2 ≤ s.clock
  queueDrops : s.queueDrops = s.refused % 2 ^ 64
  room : s.messages.length ≤ frameQueueDepth
  channel : s.taken ++ s.messages <+: s.sent
  unread : s.worker.hasReceiver = true → s.sent = s.taken ++ s.messages
  written : s.written.map Prod.fst <+: frames s.taken
  receiving : s.worker = .receiving → s.written.map Prod.fst = frames s.taken
  opened : s.writer = true → s.written ≠ []
  appended : s.appended = saturated (s.written.countP (·.2))
  backpressureDrops : s.backpressureDrops = saturated (s.written.countP (!·.2))

/-- The writer has written every frame before the last message. -/
structure Finished (s : Recorder Frame) (stats : WriterStats) : Prop where
  appended : stats.appended = saturated (s.written.countP (·.2))
  backpressureDrops : stats.backpressureDrops = saturated (s.written.countP (!·.2))
  nonempty : s.written ≠ []
  all : ∃ before after, s.sent = before ++ .finish :: after ∧ s.written.map Prod.fst = frames before

theorem finishWriter_ne_receiving {outcome : Except WriterError Bool} :
    s.finishWriter outcome ≠ .receiving := by
  unfold finishWriter
  split
  · cases outcome <;> exact nofun
  · exact nofun

section

variable (h : Accounts s)
include h

theorem Accounts.reportEnd (ending : RecordEnd) : Accounts (s.reportEnd ending) :=
  ⟨h.captured, h.order, h.times, h.clock, h.queueDrops, h.room, h.channel, h.unread, h.written,
    h.receiving, h.opened, h.appended, h.backpressureDrops⟩

/-- A message pushed is behind the ones before. -/
theorem Accounts.push_unread (message : WriterMessage Frame) (hopen : s.worker.hasReceiver = true) :
    s.sent ++ [message] = s.taken ++ (s.messages ++ [message]) := by
  rw [h.unread hopen, List.append_assoc]

theorem Accounts.pushFinish (hopen : s.worker.hasReceiver = true)
    (hroom : s.messages.length < frameQueueDepth) : Accounts (s.push .finish) where
  captured := by simpa [push] using h.captured
  order := by simpa [push] using h.order
  times := h.times
  clock := h.clock
  queueDrops := h.queueDrops
  room := by
    rw [push, List.length_append]
    exact hroom
  channel := ⟨[], by rw [List.append_nil]; exact (h.push_unread _ hopen).symm⟩
  unread := fun _ => h.push_unread _ hopen
  written := h.written
  receiving := h.receiving
  opened := h.opened
  appended := h.appended
  backpressureDrops := h.backpressureDrops

theorem Accounts.deliver (frame : Frame) {elapsed : ℕ} (hclock : s.clock ≤ elapsed) :
    Accounts (s.deliver frame elapsed) := by
  have htimes : (s.captured ++ [(frame, elapsed)]).Pairwise (·.2 ≤ ·.2) := by
    rw [List.pairwise_append]
    refine ⟨h.times, List.pairwise_singleton _ _, fun before hbefore after hafter => ?_⟩
    obtain rfl := List.mem_singleton.1 hafter
    exact (h.clock before hbefore).trans hclock
  have hlast : ∀ before ∈ s.captured ++ [(frame, elapsed)], before.2 ≤ elapsed := by
    intro before hbefore
    rcases List.mem_append.1 hbefore with hbefore | hbefore
    · exact (h.clock before hbefore).trans hclock
    · rw [List.mem_singleton.1 hbefore]
  have hmore : (frames s.sent).Sublist (s.captured ++ [(frame, elapsed)]) :=
    h.order.trans (List.sublist_append_left _ _)
  have hcaptured := h.captured
  have hdrops := h.queueDrops
  rw [Recorder.deliver]
  split
  · rename_i hopen
    split
    · rename_i hroom
      refine ⟨?_, ?_, htimes, hlast, h.queueDrops, ?_, ⟨[], ?_⟩, fun _ => h.push_unread _ hopen,
        h.written, h.receiving, h.opened, h.appended, h.backpressureDrops⟩
      · simp [push]
        omega
      · simpa [push] using h.order
      · rw [push, List.length_append]
        exact hroom
      · rw [List.append_nil]
        exact (h.push_unread _ hopen).symm
    · refine ⟨?_, hmore, htimes, hlast, ?_, h.room, h.channel, h.unread, h.written, h.receiving,
        h.opened, h.appended, h.backpressureDrops⟩
      · simp
        omega
      · simp only [hdrops]
        omega
  · refine ⟨?_, hmore, htimes, hlast, h.queueDrops, h.room, h.channel, h.unread, h.written, h.receiving,
      h.opened, h.appended, h.backpressureDrops⟩
    simp
    omega

/-- What a turn of the writer's loop takes is the first message in the channel. -/
theorem Accounts.take {message : WriterMessage Frame} {messages : List (WriterMessage Frame)}
    (hmessages : s.messages = message :: messages) :
    s.taken ++ [message] ++ messages = s.taken ++ s.messages ∧ messages.length ≤ frameQueueDepth := by
  refine ⟨by rw [hmessages, List.append_assoc]; rfl, ?_⟩
  have hroom := h.room
  rw [hmessages, List.length_cons] at hroom
  omega

theorem Accounts.write {outcome : Except WriterError Bool} (hwrite : s.write outcome = some s') :
    Accounts s' := by
  unfold Recorder.write at hwrite
  split at hwrite
  swap
  · cases hwrite
  rename_i message messages hworker hmessages
  obtain ⟨htake, hroom⟩ := h.take hmessages
  have hchannel : s.taken ++ [message] ++ messages <+: s.sent := htake ▸ h.channel
  have hunread : s.sent = s.taken ++ [message] ++ messages :=
    (h.unread (by rw [hworker]; rfl)).trans htake.symm
  have hwritten := h.receiving hworker
  cases message with
  | finish =>
    have hprefix : s.written.map Prod.fst <+: frames (s.taken ++ [.finish]) := by
      simpa using h.written
    obtain rfl := Option.some.inj hwrite
    exact ⟨h.captured, h.order, h.times, h.clock, h.queueDrops, hroom, hchannel, fun _ => hunread,
      hprefix, fun hreceiving => absurd hreceiving finishWriter_ne_receiving, h.opened, h.appended,
      h.backpressureDrops⟩
  | frame frame timestamp =>
    have hframes : frames (s.taken ++ [.frame frame timestamp]) =
        s.written.map Prod.fst ++ [(frame, timestamp)] := by simp [hwritten]
    cases outcome with
    | error error =>
      -- the frame is taken, but not written
      obtain rfl := Option.some.inj hwrite
      refine ⟨h.captured, h.order, h.times, h.clock, h.queueDrops, hroom, hchannel, fun _ => hunread,
        ?_, fun hreceiving => (by cases hreceiving), h.opened, h.appended, h.backpressureDrops⟩
      exact hframes ▸ List.prefix_append _ _
    | ok taken =>
      have hnew : (s.written ++ [((frame, timestamp), taken)]).map Prod.fst =
          frames (s.taken ++ [.frame frame timestamp]) := by
        rw [List.map_append, hframes]
        rfl
      have hne : s.written ++ [((frame, timestamp), taken)] ≠ [] := List.concat_ne_nil _ _
      cases taken with
      | true =>
        obtain rfl := Option.some.inj hwrite
        refine ⟨h.captured, h.order, h.times, h.clock, h.queueDrops, hroom, hchannel, fun _ => hunread,
          hnew ▸ List.prefix_rfl, fun _ => hnew, fun _ => hne, ?_, ?_⟩
        · simp only [writeFrame, h.appended, saturatingSucc_saturated]
          simp
        · simp [writeFrame, h.backpressureDrops]
      | false =>
        obtain rfl := Option.some.inj hwrite
        refine ⟨h.captured, h.order, h.times, h.clock, h.queueDrops, hroom, hchannel, fun _ => hunread,
          hnew ▸ List.prefix_rfl, fun _ => hnew, fun _ => hne, ?_, ?_⟩
        · simp [writeFrame, h.appended]
        · simp only [writeFrame, h.backpressureDrops, saturatingSucc_saturated]
          simp

/-- The messages that are left when the thread lets go of its receiver are never read. -/
theorem Accounts.closeReceiver (result : Except WriterError WriterStats) :
    Accounts { s with worker := .ended result, messages := [] } where
  captured := h.captured
  order := h.order
  times := h.times
  clock := h.clock
  queueDrops := h.queueDrops
  room := Nat.zero_le _
  channel := by
    rw [List.append_nil]
    exact (List.prefix_append _ _).trans h.channel
  unread := nofun
  written := h.written
  receiving := nofun
  opened := h.opened
  appended := h.appended
  backpressureDrops := h.backpressureDrops

end

/-! ## How a recording ends -/

/-- A capturer that stopped by itself is not stopped again. -/
def Agrees (ending : RecordEnd) (stopped : Except String Unit) : Prop :=
  ∀ message, ending = .captureError message → stopped = .ok ()

/-- What is known where `record` is: the end it acts on is the first one reported, and its last message
is sent before the writer's thread is joined. -/
def AtPhase (s : Recorder Frame) : Prop :=
  match s.phase with
  | .starting | .waiting => s.ends = s.reported.head? ∧ .finish ∉ s.sent
  | .stopping ending => s.reported.head? = some ending ∧ .finish ∉ s.sent
  | .finishing ending stopped =>
    s.reported.head? = some ending ∧ Agrees ending stopped ∧ .finish ∉ s.sent
  | .joining ending stopped =>
    s.reported.head? = some ending ∧ Agrees ending stopped ∧
      (s.worker = .receiving → .finish ∈ s.messages)
  | .returned result =>
    (∃ message, result = .error (.capturer message)) ∨
      ∃ ending stopped written, s.reported.head? = some ending ∧ Agrees ending stopped ∧
        s.worker = .ended written ∧ result = recordResult ending stopped written s.queueDrops

structure Inv (s : Recorder Frame) : Prop where
  accounts : s.Accounts
  finished : ∀ stats, s.worker = .closing (.ok stats) ∨ s.worker = .ended (.ok stats) → s.Finished stats
  failed : .writerError ∈ s.reported →
    ∃ error, s.worker = .closing (.error error) ∨ s.worker = .ended (.error error)
  phase : s.AtPhase

/-- A step beside `record`: its phase and the ends stay, and the last message is neither sent nor lost
while the writer waits for it. -/
theorem AtPhase.beside (h : s.AtPhase) (hphase : s.phase.hasReturned = false)
    (hsame : s'.phase = s.phase) (hends : s'.ends = s.ends) (hreported : s'.reported = s.reported)
    (hsent : .finish ∈ s'.sent → .finish ∈ s.sent)
    (hworker : s'.worker = .receiving →
      s.worker = .receiving ∧ (.finish ∈ s.messages → .finish ∈ s'.messages)) : s'.AtPhase := by
  unfold AtPhase at h ⊢
  rw [hsame]
  cases hp : s.phase with
  | starting | waiting =>
    rw [hp] at h
    exact ⟨by rw [hends, hreported]; exact h.1, fun hmem => h.2 (hsent hmem)⟩
  | stopping ending =>
    rw [hp] at h
    exact ⟨by rw [hreported]; exact h.1, fun hmem => h.2 (hsent hmem)⟩
  | finishing ending stopped =>
    rw [hp] at h
    exact ⟨by rw [hreported]; exact h.1, h.2.1, fun hmem => h.2.2 (hsent hmem)⟩
  | joining ending stopped =>
    rw [hp] at h
    refine ⟨by rw [hreported]; exact h.1, h.2.1, fun hreceiving => ?_⟩
    obtain ⟨hbefore, hmessages⟩ := hworker hreceiving
    exact hmessages (h.2.2 hbefore)
  | returned result =>
    rw [hp] at hphase
    cases hphase

/-- An end reported is the first one only if none was. -/
theorem AtPhase.reportEnd (h : s.AtPhase) (hphase : s.phase.hasReturned = false) (ending : RecordEnd) :
    (s.reportEnd ending).AtPhase := by
  have hhead : ∀ first, s.reported.head? = some first →
      (s.reported ++ [ending]).head? = some first := by
    intro first hfirst
    rw [List.head?_append, hfirst]
    rfl
  unfold AtPhase at h ⊢
  dsimp only [Recorder.reportEnd]
  cases hp : s.phase with
  | starting | waiting =>
    rw [hp] at h
    refine ⟨?_, h.2⟩
    rw [List.head?_append, ← h.1]
    rfl
  | stopping first =>
    rw [hp] at h
    exact ⟨hhead _ h.1, h.2⟩
  | finishing first stopped =>
    rw [hp] at h
    exact ⟨hhead _ h.1, h.2⟩
  | joining first stopped =>
    rw [hp] at h
    exact ⟨hhead _ h.1, h.2⟩
  | returned result =>
    rw [hp] at hphase
    cases hphase

theorem Finished.more {stats : WriterStats} (h : s.Finished stats) (hwritten : s'.written = s.written)
    (hsent : s.sent <+: s'.sent) : s'.Finished stats := by
  obtain ⟨more, hmore⟩ := hsent
  obtain ⟨before, after, heq, hall⟩ := h.all
  refine ⟨hwritten ▸ h.appended, hwritten ▸ h.backpressureDrops, hwritten ▸ h.nonempty, before,
    after ++ more, ?_, hwritten ▸ hall⟩
  rw [← hmore, heq, List.append_assoc, List.cons_append]

/-- Statistics are returned only once the last message is taken. -/
theorem Accounts.finished (h : s.Accounts) {messages : List (WriterMessage Frame)}
    (hworker : s.worker = .receiving) (hmessages : s.messages = .finish :: messages)
    {outcome : Except WriterError Bool} {stats : WriterStats}
    (hstats : s.finishWriter outcome = .closing (.ok stats)) : s.Finished stats := by
  unfold finishWriter at hstats
  split at hstats
  swap
  · cases hstats
  rename_i hopened
  cases outcome with
  | error error => cases hstats
  | ok taken =>
    obtain rfl := Except.ok.inj (WorkerPhase.closing.inj hstats)
    refine ⟨h.appended, h.backpressureDrops, h.opened hopened, s.taken, messages, ?_,
      h.receiving hworker⟩
    rw [h.unread (by rw [hworker]; rfl), hmessages]

theorem Inv.reportEnd (h : s.Inv) (hphase : s.phase.hasReturned = false) (ending : RecordEnd)
    (hending : ending ≠ .writerError) : (s.reportEnd ending).Inv where
  accounts := h.accounts.reportEnd ending
  finished stats hstats := (h.finished stats hstats).more rfl List.prefix_rfl
  failed hmem := by
    rcases List.mem_append.1 hmem with hmem | hmem
    · exact h.failed hmem
    · exact absurd (List.mem_singleton.1 hmem).symm hending
  phase := h.phase.reportEnd hphase ending

theorem deliver_frame (frame : Frame) (elapsed : ℕ) : (s.deliver frame elapsed).phase = s.phase ∧
    (s.deliver frame elapsed).ends = s.ends ∧ (s.deliver frame elapsed).reported = s.reported ∧
    (s.deliver frame elapsed).worker = s.worker ∧ (s.deliver frame elapsed).written = s.written ∧
    ∃ more, .finish ∉ more ∧ (s.deliver frame elapsed).sent = s.sent ++ more ∧
      (s.deliver frame elapsed).messages = s.messages ++ more := by
  unfold deliver
  dsimp only
  split
  · split
    · exact ⟨rfl, rfl, rfl, rfl, rfl, [.frame frame elapsed], by simp, rfl, rfl⟩
    · exact ⟨rfl, rfl, rfl, rfl, rfl, [], List.not_mem_nil, (List.append_nil _).symm,
        (List.append_nil _).symm⟩
  · exact ⟨rfl, rfl, rfl, rfl, rfl, [], List.not_mem_nil, (List.append_nil _).symm,
      (List.append_nil _).symm⟩

theorem Inv.deliver (h : s.Inv) (hphase : s.phase.hasReturned = false) (frame : Frame) {elapsed : ℕ}
    (hclock : s.clock ≤ elapsed) : (s.deliver frame elapsed).Inv := by
  obtain ⟨hsame, hends, hreported, hworker, hwritten, more, hmore, hsent, hmessages⟩ :=
    deliver_frame (s := s) frame elapsed
  refine ⟨h.accounts.deliver frame hclock, fun stats hstats => ?_, fun hmem => ?_, ?_⟩
  · rw [hworker] at hstats
    exact (h.finished stats hstats).more hwritten (hsent ▸ List.prefix_append _ _)
  · rw [hworker]
    exact h.failed (hreported ▸ hmem)
  · refine h.phase.beside hphase hsame hends hreported (fun hmem => ?_) fun hreceiving => ⟨?_, ?_⟩
    · rw [hsent] at hmem
      exact (List.mem_append.1 hmem).resolve_right hmore
    · rw [← hworker]
      exact hreceiving
    · intro hmem
      rw [hmessages]
      exact List.mem_append_left _ hmem

theorem Inv.write (h : s.Inv) (hphase : s.phase.hasReturned = false)
    {outcome : Except WriterError Bool} (hwrite : s.write outcome = some s') : s'.Inv := by
  have haccounts := h.accounts.write hwrite
  unfold Recorder.write at hwrite
  split at hwrite
  swap
  · cases hwrite
  rename_i message messages hworker hmessages
  have hfailed : .writerError ∉ s.reported := by
    intro hmem
    obtain ⟨error, hclosing | hended⟩ := h.failed hmem
    · rw [hworker] at hclosing
      cases hclosing
    · rw [hworker] at hended
      cases hended
  cases message with
  | finish =>
    obtain rfl := Option.some.inj hwrite
    refine ⟨haccounts, fun stats hstats => ?_, fun hmem => absurd hmem hfailed,
      h.phase.beside hphase rfl rfl rfl id fun hreceiving =>
        absurd hreceiving finishWriter_ne_receiving⟩
    have hclosing : s.finishWriter outcome = .closing (.ok stats) := by
      rcases hstats with hclosing | hended
      · exact hclosing
      · refine absurd hended ?_
        dsimp only [finishWriter]
        split
        · cases outcome <;> exact nofun
        · exact nofun
    exact (h.accounts.finished hworker hmessages hclosing).more rfl List.prefix_rfl
  | frame frame timestamp =>
    have hbeside : ∀ s'' : Recorder Frame, s''.phase = s.phase → s''.ends = s.ends →
        s''.reported = s.reported → s''.sent = s.sent → s''.messages = messages → s''.AtPhase := by
      intro s'' hsame hends hreported hsent hrest
      refine h.phase.beside hphase hsame hends hreported (fun hmem => hsent ▸ hmem) fun _ =>
        ⟨hworker, fun hmem => ?_⟩
      rw [hmessages] at hmem
      rw [hrest]
      exact (List.mem_cons.1 hmem).resolve_left nofun
    cases outcome with
    | error error =>
      obtain rfl := Option.some.inj hwrite
      refine ⟨haccounts, fun stats hstats => ?_, fun hmem => absurd hmem hfailed,
        hbeside _ rfl rfl rfl rfl rfl⟩
      rcases hstats with hstats | hstats <;> cases hstats
    | ok taken =>
      have hstill : s'.worker = .receiving ∧ s'.reported = s.reported ∧ s'.AtPhase := by
        cases taken with
        | true =>
          obtain rfl := Option.some.inj hwrite
          exact ⟨hworker, rfl, hbeside _ rfl rfl rfl rfl rfl⟩
        | false =>
          obtain rfl := Option.some.inj hwrite
          exact ⟨hworker, rfl, hbeside _ rfl rfl rfl rfl rfl⟩
      obtain ⟨hreceiving, hreported, hatPhase⟩ := hstill
      refine ⟨haccounts, fun stats hstats => ?_, fun hmem => absurd (hreported ▸ hmem) hfailed, hatPhase⟩
      rw [hreceiving] at hstats
      rcases hstats with hstats | hstats <;> cases hstats

theorem Inv.reportError (h : s.Inv) (hphase : s.phase.hasReturned = false) {error : WriterError}
    (hworker : s.worker = .reporting error) :
    Inv { s.reportEnd .writerError with worker := .closing (.error error) } where
  accounts := by
    refine ⟨h.accounts.captured, h.accounts.order, h.accounts.times, h.accounts.clock,
      h.accounts.queueDrops, h.accounts.room, h.accounts.channel, fun _ => h.accounts.unread ?_,
      h.accounts.written, nofun, h.accounts.opened, h.accounts.appended, h.accounts.backpressureDrops⟩
    rw [hworker]
    rfl
  finished stats hstats := by rcases hstats with hstats | hstats <;> cases hstats
  failed _ := ⟨error, .inl rfl⟩
  phase := (h.phase.reportEnd hphase .writerError).beside hphase rfl rfl rfl id nofun

theorem Inv.closeReceiver (h : s.Inv) (hphase : s.phase.hasReturned = false)
    {result : Except WriterError WriterStats} (hworker : s.worker = .closing result) :
    Inv { s with worker := .ended result, messages := [] } where
  accounts := h.accounts.closeReceiver result
  finished stats hstats := by
    rcases hstats with hstats | hstats
    · cases hstats
    · obtain rfl := WorkerPhase.ended.inj hstats
      exact (h.finished stats (.inl hworker)).more rfl List.prefix_rfl
  failed hmem := by
    obtain ⟨error, hclosing | hended⟩ := h.failed hmem
    · rw [hworker] at hclosing
      exact ⟨error, .inr (congrArg _ (WorkerPhase.closing.inj hclosing))⟩
    · rw [hworker] at hended
      cases hended
  phase := h.phase.beside hphase rfl rfl rfl id nofun

/-- Only the phase changes, with the end that is acted on. -/
theorem Inv.proceedTo (h : s.Inv) {phase : RecordPhase} {ends : Option RecordEnd}
    (hphase : AtPhase { s with phase, ends }) : Inv { s with phase, ends } where
  accounts := ⟨h.accounts.captured, h.accounts.order, h.accounts.times, h.accounts.clock,
    h.accounts.queueDrops, h.accounts.room, h.accounts.channel, h.accounts.unread, h.accounts.written,
    h.accounts.receiving, h.accounts.opened, h.accounts.appended, h.accounts.backpressureDrops⟩
  finished stats hstats := (h.finished stats hstats).more rfl List.prefix_rfl
  failed := h.failed
  phase := hphase

theorem Inv.finish (h : s.Inv) {ending : RecordEnd} {stopped : Except String Unit}
    (hfinishing : s.phase = .finishing ending stopped) (hfinish : s.finish ending stopped = some s') :
    s'.Inv := by
  have hat := h.phase
  unfold AtPhase at hat
  rw [hfinishing] at hat
  obtain ⟨hhead, hagrees, -⟩ := hat
  unfold Recorder.finish at hfinish
  split at hfinish
  · rename_i hopen
    rw [Option.ite_none_right_eq_some] at hfinish
    obtain ⟨hroom, hpush⟩ := hfinish
    obtain rfl := Option.some.inj hpush
    have haccounts := h.accounts.pushFinish hopen hroom
    refine ⟨⟨haccounts.captured, haccounts.order, haccounts.times, haccounts.clock,
        haccounts.queueDrops, haccounts.room, haccounts.channel, haccounts.unread, haccounts.written,
        haccounts.receiving, haccounts.opened, haccounts.appended, haccounts.backpressureDrops⟩,
      fun stats hstats => (h.finished stats hstats).more rfl (List.prefix_append _ _), h.failed,
      hhead, hagrees, fun _ => List.mem_append_right _ (List.mem_singleton_self _)⟩
  · -- the writer's thread has ended, so the message is lost
    rename_i hclosed
    obtain rfl := Option.some.inj hfinish
    refine h.proceedTo ⟨hhead, hagrees, fun hreceiving => absurd ?_ hclosed⟩
    rw [show s.worker = .receiving from hreceiving]
    rfl

theorem Inv.proceed (h : s.Inv) {label : RecordStep Frame} (hproceed : s.proceed label = some s') :
    s'.Inv := by
  have hat := h.phase
  unfold Recorder.proceed at hproceed
  split at hproceed
  · split at hproceed
    · rename_i hstarting
      obtain rfl := Option.some.inj hproceed
      unfold AtPhase at hat
      rw [hstarting] at hat
      exact h.proceedTo hat
    · rename_i message hstarting
      obtain rfl := Option.some.inj hproceed
      exact h.proceedTo (.inl ⟨message, rfl⟩)
    · cases hproceed
  · split at hproceed
    · rename_i ending hwaiting hends
      obtain rfl := Option.some.inj hproceed
      unfold AtPhase at hat
      rw [hwaiting] at hat
      exact h.proceedTo ⟨hat.1.symm.trans hends, hat.2⟩
    · cases hproceed
  · split at hproceed
    · rename_i message hstopping
      obtain rfl := Option.some.inj hproceed
      unfold AtPhase at hat
      rw [hstopping] at hat
      exact h.proceedTo ⟨hat.1, fun _ _ => rfl, hat.2⟩
    · rename_i ending hother hstopping
      obtain rfl := Option.some.inj hproceed
      unfold AtPhase at hat
      rw [hstopping] at hat
      exact h.proceedTo ⟨hat.1, fun message heq => absurd heq (hother message), hat.2⟩
    · cases hproceed
  · split at hproceed
    · rename_i ending stopped hfinishing
      exact h.finish hfinishing hproceed
    · cases hproceed
  · split at hproceed
    · rename_i ending stopped result hjoining hended
      obtain rfl := Option.some.inj hproceed
      unfold AtPhase at hat
      rw [hjoining] at hat
      exact h.proceedTo (.inr ⟨ending, stopped, result, hat.1, hat.2.1, hended, rfl⟩)
    · cases hproceed
  · cases hproceed

theorem Inv.step (h : s.Inv) {label : RecordStep Frame} (hstep : s.step label = some s') : s'.Inv := by
  obtain ⟨hphase, hspec⟩ := step_spec hstep
  cases label with
  | interrupt => exact (show s' = _ from hspec) ▸ h.reportEnd hphase .interrupt nofun
  | captureStopped message =>
    exact (show s' = _ from hspec) ▸ h.reportEnd hphase (.captureError message) nofun
  | deliver frame elapsed =>
    obtain ⟨hclock, rfl⟩ := hspec
    exact h.deliver hphase frame hclock
  | write outcome => exact h.write hphase hspec
  | reportError =>
    obtain ⟨error, hworker, rfl⟩ := hspec
    exact h.reportError hphase hworker
  | closeReceiver =>
    obtain ⟨result, hworker, rfl⟩ := hspec
    exact h.closeReceiver hphase hworker
  | start started => exact h.proceed hspec
  | receiveEnd => exact h.proceed hspec
  | stop stopped => exact h.proceed hspec
  | finish => exact h.proceed hspec
  | join => exact h.proceed hspec

theorem inv_launched : (launched Frame).Inv where
  accounts :=
    { captured := rfl
      order := List.Sublist.slnil
      times := .nil
      clock := nofun
      queueDrops := rfl
      room := Nat.zero_le _
      channel := List.prefix_rfl
      unread := fun _ => rfl
      written := List.prefix_rfl
      receiving := fun _ => rfl
      opened := nofun
      appended := rfl
      backpressureDrops := rfl }
  finished stats hstats := by rcases hstats with hstats | hstats <;> cases hstats
  failed := nofun
  phase := ⟨rfl, List.not_mem_nil⟩

theorem Inv.reachable (h : (recorder Frame).Reachable s) : s.Inv :=
  h.invariant (fun _ hinit => hinit ▸ inv_launched) fun _ _ _ hinv hstep => hinv.step hstep

/-- What `record` prints is true: the frames before its last message were all written, those behind it
and those that found no room are the rest, and the counts are of the first. -/
structure Printed (s : Recorder Frame) (recorded : Recorded) : Prop where
  finished : s.Finished recorded.toWriterStats
  queueDrops : recorded.queueDrops = s.refused % 2 ^ 64
  rest : ∃ late, frames s.sent = s.written.map Prod.fst ++ late ∧
    s.captured.length = s.written.length + late.length + s.refused + s.unreceived

theorem Accounts.printed (h : s.Accounts) {recorded : Recorded}
    (hfinished : s.Finished recorded.toWriterStats) (hdrops : recorded.queueDrops = s.queueDrops) :
    s.Printed recorded := by
  obtain ⟨before, after, hsent, hall⟩ := hfinished.all
  have hframes : frames s.sent = s.written.map Prod.fst ++ frames after := by
    rw [hsent, frames_append, frames_finish, hall]
  refine ⟨hfinished, hdrops.trans h.queueDrops, frames after, hframes, ?_⟩
  rw [h.captured, hframes, List.length_append, List.length_map]

/-- In every interleaving the writer is given the frames in the order and at the times they were
captured, each one captured is sent, refused or left without a receiver, and `record` returns without an
error only after an interrupt, when what it prints is true. -/
theorem record_accounts (h : (recorder Frame).Reachable s) :
    s.written.map Prod.fst <+: frames s.sent ∧ (frames s.sent).Sublist s.captured ∧
      s.captured.Pairwise (·.2 ≤ ·.2) ∧
      s.captured.length = (frames s.sent).length + s.refused + s.unreceived ∧
      ∀ recorded, s.phase = .returned (.ok recorded) →
        s.reported.head? = some .interrupt ∧ s.Printed recorded := by
  have hinv := Inv.reachable h
  have hsent : frames s.taken <+: frames s.sent := by
    obtain ⟨more, hmore⟩ := (List.prefix_append _ _).trans hinv.accounts.channel
    rw [← hmore, frames_append]
    exact List.prefix_append _ _
  refine ⟨hinv.accounts.written.trans hsent, hinv.accounts.order, hinv.accounts.times,
    hinv.accounts.captured, fun recorded hreturned => ?_⟩
  have hat := hinv.phase
  unfold AtPhase at hat
  rw [hreturned] at hat
  obtain ⟨message, hstart⟩ | ⟨ending, stopped, written, hhead, hagrees, hended, hresult⟩ := hat
  · cases hstart
  cases stopped with
  | error message => cases hresult
  | ok stopped =>
    cases written with
    | error error => cases ending <;> cases hresult
    | ok stats =>
      -- the end was the interrupt, or the writer's error, and a writer that failed has no statistics
      have hprinted : recorded = { toWriterStats := stats, queueDrops := s.queueDrops } →
          s.Printed recorded := fun heq =>
        hinv.accounts.printed (heq ▸ hinv.finished stats (.inr hended)) (by rw [heq])
      cases ending with
      | captureError message => cases hresult
      | interrupt => exact ⟨hhead, hprinted (Except.ok.inj hresult)⟩
      | writerError =>
        obtain ⟨error, hclosing | herror⟩ := hinv.failed (List.mem_of_mem_head? (by rw [hhead]; rfl))
        · rw [hended] at hclosing
          cases hclosing
        · rw [hended] at herror
          cases WorkerPhase.ended.inj herror

/-- Two frames, of which the writer has no time for the second, and the key. -/
def twoFrames : List (RecordStep ℕ) :=
  [.start (.ok ()), .deliver 7 10, .write (.ok true), .deliver 8 20, .interrupt, .receiveEnd,
    .stop (.ok ()), .finish, .write (.ok false), .write (.ok true), .closeReceiver, .join]

def twoFramesRecorded : Recorder ℕ where
  phase := .returned (.ok
    { appended := 1
      backpressureDrops := 1
      queueDrops := 0 })
  ends := none
  messages := []
  worker := .ended (.ok
    { appended := 1
      backpressureDrops := 1 })
  writer := true
  appended := 1
  backpressureDrops := 1
  queueDrops := 0
  clock := 20
  captured := [(7, 10), (8, 20)]
  refused := 0
  unreceived := 0
  sent := [.frame 7 10, .frame 8 20, .finish]
  taken := [.frame 7 10, .frame 8 20, .finish]
  written := [((7, 10), true), ((8, 20), false)]
  reported := [.interrupt]

theorem run_twoFrames : (recorder ℕ).Run (.launched ℕ) twoFrames twoFramesRecorded :=
  .cons rfl (.cons rfl (.cons rfl (.cons rfl (.cons rfl (.cons rfl (.cons rfl (.cons rfl (.cons rfl
    (.cons rfl (.cons rfl (.cons rfl (.nil _))))))))))))

theorem record_accounts_twoFrames :
    twoFramesRecorded.Printed
      { appended := 1
        backpressureDrops := 1
        queueDrops := 0 } :=
  ((record_accounts ⟨_, _, rfl, run_twoFrames⟩).2.2.2.2 _ rfl).2

/-! ## A recording that is to end does -/

/-- The steps of `record` and of the writer's thread. -/
def Internal : RecordStep Frame → Prop
  | .interrupt | .captureStopped _ | .deliver _ _ => False
  | _ => True

def phaseRank : RecordPhase → ℕ
  | .starting => 5
  | .waiting => 4
  | .stopping _ => 3
  | .finishing _ _ => 2
  | .joining _ _ => 1
  | .returned _ => 0

def workerRank : WorkerPhase → ℕ
  | .receiving => 3
  | .reporting _ => 2
  | .closing _ => 1
  | .ended _ => 0

/-- A bound of the steps that `record` and the writer's thread still have before them. -/
def remaining (s : Recorder Frame) : ℕ :=
  3 * phaseRank s.phase + workerRank s.worker + s.messages.length

theorem finishWriter_rank (outcome : Except WriterError Bool) :
    workerRank (s.finishWriter outcome) ≤ 2 := by
  unfold finishWriter
  split
  · cases outcome <;> simp [workerRank]
  · simp [workerRank]

theorem write_remaining_lt {outcome : Except WriterError Bool} (hwrite : s.write outcome = some s') :
    s'.remaining < s.remaining := by
  unfold Recorder.write at hwrite
  split at hwrite
  swap
  · cases hwrite
  rename_i message messages hworker hmessages
  have hbefore : s.remaining = 3 * phaseRank s.phase + 3 + (messages.length + 1) := by
    rw [remaining, hworker, hmessages]
    rfl
  rw [hbefore]
  cases message with
  | finish =>
    obtain rfl := Option.some.inj hwrite
    have hrank := finishWriter_rank (s := s) outcome
    change 3 * phaseRank s.phase + workerRank (s.finishWriter outcome) + messages.length < _
    omega
  | frame frame timestamp =>
    obtain rfl := Option.some.inj hwrite
    obtain error | taken := outcome
    · change 3 * phaseRank s.phase + 2 + messages.length < _
      omega
    · have hafter : ∀ taken, remaining (writeFrame { s with messages, taken := s.taken ++
          [.frame frame timestamp] } (frame, timestamp) (.ok taken)) =
            3 * phaseRank s.phase + 3 + messages.length := by
        intro taken
        cases taken <;> simp [remaining, writeFrame, hworker, workerRank]
      rw [hafter taken]
      omega

theorem finish_remaining_lt {ending : RecordEnd} {stopped : Except String Unit}
    (hfinishing : s.phase = .finishing ending stopped) (hfinish : s.finish ending stopped = some s') :
    s'.remaining < s.remaining := by
  unfold Recorder.finish at hfinish
  unfold remaining
  rw [hfinishing]
  split at hfinish
  · rw [Option.ite_none_right_eq_some] at hfinish
    obtain rfl := Option.some.inj hfinish.2
    simp only [push, phaseRank, List.length_append, List.length_singleton]
    omega
  · obtain rfl := Option.some.inj hfinish
    simp [phaseRank]

theorem proceed_remaining_lt {label : RecordStep Frame} (hproceed : s.proceed label = some s') :
    s'.remaining < s.remaining := by
  unfold Recorder.proceed at hproceed
  split at hproceed
  · split at hproceed
    · rename_i hstarting
      obtain rfl := Option.some.inj hproceed
      simp [remaining, hstarting, phaseRank]
    · rename_i message hstarting
      obtain rfl := Option.some.inj hproceed
      simp [remaining, hstarting, phaseRank]
    · cases hproceed
  · split at hproceed
    · rename_i ending hwaiting hends
      obtain rfl := Option.some.inj hproceed
      simp [remaining, hwaiting, phaseRank]
    · cases hproceed
  · split at hproceed
    · rename_i message hstopping
      obtain rfl := Option.some.inj hproceed
      simp [remaining, hstopping, phaseRank]
    · rename_i ending hother hstopping
      obtain rfl := Option.some.inj hproceed
      simp [remaining, hstopping, phaseRank]
    · cases hproceed
  · split at hproceed
    · rename_i ending stopped hfinishing
      exact finish_remaining_lt hfinishing hproceed
    · cases hproceed
  · split at hproceed
    · rename_i ending stopped result hjoining hended
      obtain rfl := Option.some.inj hproceed
      simp [remaining, hjoining, phaseRank]
    · cases hproceed
  · cases hproceed

/-- Each of their steps brings the end nearer. -/
theorem remaining_lt {label : RecordStep Frame} (hinternal : Internal label)
    (hstep : s.step label = some s') : s'.remaining < s.remaining := by
  obtain ⟨hphase, hspec⟩ := step_spec hstep
  cases label with
  | interrupt | captureStopped | deliver => exact absurd hinternal id
  | write outcome => exact write_remaining_lt hspec
  | reportError =>
    obtain ⟨error, hworker, rfl⟩ := hspec
    simp [remaining, Recorder.reportEnd, hworker, workerRank]
  | closeReceiver =>
    obtain ⟨result, hworker, rfl⟩ := hspec
    simp only [remaining, hworker, workerRank, List.length_nil]
    omega
  | start | receiveEnd | stop | finish | join => exact proceed_remaining_lt hspec

theorem Inv.remaining_le (h : s.Inv) : s.remaining ≤ 26 := by
  have hroom := h.accounts.room
  have hphase : phaseRank s.phase ≤ 5 := by cases s.phase <;> simp [phaseRank]
  have hworker : workerRank s.worker ≤ 3 := by cases s.worker <;> simp [workerRank]
  unfold remaining
  unfold frameQueueDepth at hroom
  omega

/-- While the writer has messages, or has ended its loop, its thread goes on. -/
theorem worker_proceeds (hphase : s.phase.hasReturned = false)
    (hended : ∀ result, s.worker ≠ .ended result)
    (hmessages : s.worker = .receiving → s.messages ≠ []) :
    ∃ label s', Internal label ∧ s.step label = some s' := by
  cases hworker : s.worker with
  | receiving =>
    obtain ⟨message, messages, hcons⟩ := List.exists_cons_of_ne_nil (hmessages hworker)
    refine ⟨.write (.ok true), ?_⟩
    simp only [Recorder.step, hphase, Recorder.write, hworker, hcons]
    cases message with
    | frame frame timestamp => exact ⟨_, trivial, rfl⟩
    | finish => exact ⟨_, trivial, rfl⟩
  | reporting error =>
    refine ⟨.reportError, { s.reportEnd .writerError with worker := .closing (.error error) },
      trivial, ?_⟩
    simp [Recorder.step, hphase, hworker]
  | closing result =>
    refine ⟨.closeReceiver, { s with worker := .ended result, messages := [] }, trivial, ?_⟩
    simp [Recorder.step, hphase, hworker]
  | ended result => exact absurd hworker (hended result)

/-- `record` waits only for an end, or for a thread that goes on. -/
theorem Inv.proceeds (h : s.Inv) (hphase : s.phase.hasReturned = false)
    (hend : s.phase = .waiting → s.ends ≠ none) :
    ∃ label s', Internal label ∧ s.step label = some s' := by
  have hat := h.phase
  unfold AtPhase at hat
  cases hp : s.phase with
  | starting =>
    refine ⟨.start (.ok ()), { s with phase := .waiting }, trivial, ?_⟩
    unfold Recorder.step Recorder.proceed
    rw [hp]
    rfl
  | waiting =>
    obtain ⟨ending, hending⟩ := Option.ne_none_iff_exists'.1 (hend hp)
    refine ⟨.receiveEnd, { s with phase := .stopping ending, ends := none }, trivial, ?_⟩
    unfold Recorder.step Recorder.proceed
    rw [hp, hending]
    rfl
  | stopping ending =>
    refine ⟨.stop (.ok ()), { s with phase := .finishing ending (.ok ()) }, trivial, ?_⟩
    unfold Recorder.step Recorder.proceed
    rw [hp]
    cases ending <;> rfl
  | finishing ending stopped =>
    by_cases hfull : s.worker.hasReceiver = true ∧ ¬ s.messages.length < frameQueueDepth
    · -- the channel is full: the writer has messages
      refine worker_proceeds hphase (fun result hended => ?_) fun _ hempty => hfull.2 ?_
      · rw [hended] at hfull
        cases hfull.1
      · rw [hempty]
        exact Nat.succ_pos 7
    · have hfinish : s.step .finish = s.finish ending stopped := by
        unfold Recorder.step Recorder.proceed
        rw [hp]
        rfl
      refine ⟨.finish, ?_⟩
      rw [hfinish, Recorder.finish]
      split
      · rename_i hopen
        rw [if_pos (by_contra fun hroom => hfull ⟨hopen, hroom⟩)]
        exact ⟨_, trivial, rfl⟩
      · exact ⟨_, trivial, rfl⟩
  | joining ending stopped =>
    rw [hp] at hat
    by_cases hended : ∃ result, s.worker = .ended result
    · obtain ⟨result, hended⟩ := hended
      refine ⟨.join, { s with phase := .returned (recordResult ending stopped result s.queueDrops) },
        trivial, ?_⟩
      unfold Recorder.step Recorder.proceed
      rw [hp, hended]
      rfl
    · exact worker_proceeds hphase (fun result hresult => hended ⟨result, hresult⟩) fun hreceiving =>
        List.ne_nil_of_mem (hat.2.2 hreceiving)
  | returned result =>
    rw [hp] at hphase
    cases hphase

/-- Nothing deadlocks: unless `record` has returned or waits for an end that nobody has reported, it or
the writer's thread can step, and after at most 26 such steps neither can. -/
theorem record_returns (h : (recorder Frame).Reachable s) :
    (s.phase.hasReturned = true ∨ s.phase = .waiting ∧ s.reported = [] ∨
      ∃ label s', Internal label ∧ s.step label = some s') ∧
    ∀ labels s', ((recorder Frame).restrict fun _ label => Internal label).Run s labels s' →
      labels.length ≤ 26 := by
  have hinv := Inv.reachable h
  refine ⟨?_, fun labels s' hrun => ?_⟩
  · by_cases hphase : s.phase.hasReturned = true
    · exact .inl hphase
    rw [Bool.not_eq_true] at hphase
    by_cases hwaiting : s.phase = .waiting ∧ s.ends = none
    · have hat := hinv.phase
      unfold AtPhase at hat
      rw [hwaiting.1] at hat
      exact .inr (.inl ⟨hwaiting.1, List.head?_eq_none_iff.1 (hat.1.symm.trans hwaiting.2)⟩)
    · exact .inr (.inr (hinv.proceeds hphase fun heq hnone => hwaiting ⟨heq, hnone⟩))
  · suffices hlength : labels.length ≤ s.remaining from hlength.trans hinv.remaining_le
    clear h hinv
    induction hrun with
    | nil => exact Nat.zero_le _
    | cons hstep _ ih =>
      have hless := remaining_lt hstep.1 hstep.2
      rw [List.length_cons]
      omega

theorem record_returns_twoFrames :
    twoFramesRecorded.phase.hasReturned = true ∨ twoFramesRecorded.phase = .waiting ∧
        twoFramesRecorded.reported = [] ∨
      ∃ label s', Internal label ∧ twoFramesRecorded.step label = some s' :=
  (record_returns ⟨_, _, rfl, run_twoFrames⟩).1

end Recorder

end Blip.Cli
