import YdbSdk.Topic.WriteSession.Memory

namespace YdbSdk.Topic.WriteSession

open YdbSdk.Control YdbSdk.Data

/-! # Continuation tokens

Before its first token a session that follows the rules has nothing to compress, to
send or to wait for.  From the first token on the tokens stay in order.
-/

variable {env : Environment} {event : Event} {start state : State} {p q : Point}

def State.tokens (state : State) : Nat := state.events.countP SessionEvent.isToken

/-- Neither compression nor sending throws when a message with this codec joins the
batch: the server takes every block, or the flush leaves both to other threads. -/
def State.FlushesSilently (env : Environment) (codec : Option Codec) (state : State) : Prop :=
  state.BlocksFit env ∨ env.settings.compressionExecutorIsAsync = true ∧
    env.settings.codec ≠ .raw ∧ state.currentBatch.hasCodec = false ∧ codec = none

def State.UserHoldsToken (state : State) : Prop := state.accepted.length < state.tokens
deriving Decidable

/-- The events a run may contain: the user writes with a token only, no compression
throws, and no write throws while it sends what it flushes. -/
structure TokenRules (env : Environment) (state : State) (event : Event) : Prop where
  quiet : CompressesQuietly env state event
  held : ∀ now message, event = .write now message → state.UserHoldsToken
  silent : ∀ now message, event = .write now message → state.FlushesSilently env message.codec

def State.TokenOutstanding (state : State) : Prop :=
  state.accepted.length < state.tokens + state.scheduledTokenEvents
deriving Decidable

structure Idle (p : Point) : Prop where
  batch : p.state.currentBatch = {}
  compressing : p.state.compressing = []
  pending : p.state.pendingWrites = []
  packed : p.state.packedMessagesToSend = []
  sent : p.state.sentPackedMessage = []
  block : p.block = none
  cleared : p.flushing = false
  opening : p.opening = false
  settled : p.settled = true

theorem State.top_ne_nil (topmost : state.top env = some block) :
    state.packedMessagesToSend ≠ [] := fun none => by
  have member := PriorityQueue.top?_mem topmost
  rw [none] at member
  exact absurd member List.not_mem_nil

theorem Idle.move (idle : Idle p) (moved : Move env event start p q) : Idle q := by
  cases moved with
  | sends sent =>
    obtain ⟨_, _, ready, _⟩ := sent.ready
    exact absurd idle.packed (State.top_ne_nil ready.topmost)
  | writes _ busy => exact (busy.elim (· idle.packed) (· idle.sent)).elim
  | builds _ _ _ waiting =>
    rw [idle.batch] at waiting
    contradiction
  | packs held | compresses held | posts held => exact absurd (idle.block.symm.trans held) nofun
  | loses => exact { idle with block := rfl }
  | clears => exact { idle with batch := rfl, cleared := rfl }
  | takes _ _ _ found =>
    rw [idle.compressing] at found
    contradiction
  | refuses unsettled | issues unsettled => exact absurd (idle.settled.symm.trans unsettled) nofun
  | subscribes _ _ opening | numbers opening | accepts _ opening =>
    exact absurd (idle.opening.symm.trans opening) nofun
  | quits | aborts => exact { idle with opening := rfl }
  | acknowledges =>
    have none := idle.sent
    refine { idle with sent := ?_, settled := ?_ }
    · simp only [State.packedAfterAck, none]
    · simp only [State.releasedBy, none, idle.settled]
      rfl
  | restarts =>
    refine { idle with packed := ?_, sent := rfl }
    simp only [idle.packed, idle.sent, List.append_nil]
  | releases found =>
    rw [idle.pending] at found
    contradiction
  | _ => exact { idle with }

structure Fresh (p : Point) : Prop extends Idle p where
  unissued : p.state.firstTokenSent = false ∧ p.state.continuationTokenIssued = false
  noTokens : p.state.tokens = 0 ∧ p.state.scheduledTokenEvents = 0 ∧ p.state.accepted = []
  nothingDue : p.due = 0
  closed : p.state.closed.isSome = true → p.state.aborting = true

structure Tokened (env : Environment) (p : Point) : Prop where
  first : p.state.firstTokenSent = true
  closed : p.state.closed.isSome = true → p.state.aborting = true
  atMost : p.state.tokens + p.state.scheduledTokenEvents + p.due ≤
    p.state.accepted.length + p.state.continuationTokenIssued.toNat
  exactly : p.state.aborting = false →
    p.state.tokens + p.state.scheduledTokenEvents + p.due =
      p.state.accepted.length + p.state.continuationTokenIssued.toNat
  issued : p.settled = true → p.state.aborting = false →
    p.state.memoryUsage ≤ env.settings.maxMemoryUsage → p.state.continuationTokenIssued = true
  outstanding : p.opening = true → p.state.continuationTokenIssued = true
  /-- Only an asynchronous executor has tasks. -/
  tasks : p.state.compressing ≠ [] → env.settings.compressionExecutorIsAsync = true

theorem State.tokens_of_pushed {events : List SessionEvent}
    (enters : Pushed state pushed events) :
    (state.closed.isSome = true ∧ events.countP SessionEvent.isToken = state.tokens) ∨
      events.countP SessionEvent.isToken = state.tokens + pushed.isToken.toNat := by
  unfold Pushed at enters
  split at enters
  · subst enters
    exact .inl ⟨‹_›, rfl⟩
  · subst enters
    exact .inr (by cases pushed <;> simp [State.tokens, SessionEvent.isToken])

theorem Tokened.move (tokened : Tokened env p) (moved : Move env event start p q) : Tokened env q := by
  have atMost := tokened.atMost
  have exactly := tokened.exactly
  cases moved with
  | writes =>
    exact { tokened with
      issued := fun settled running fits =>
        tokened.issued settled running (Nat.le_of_add_right_le fits) }
  | expires => exact { tokened with closed := fun _ => rfl, exactly := nofun, issued := nofun }
  | aborts =>
    exact { tokened with
      closed := fun _ => rfl, exactly := nofun, issued := nofun, outstanding := nofun }
  | marks closing =>
    refine { tokened with closed := fun closed => ?_ }
    rcases closing with same | aborting
    · subst same
      exact tokened.closed closed
    · exact aborting
  | compresses => exact { tokened with issued := nofun }
  | posts _ async => exact { tokened with tasks := fun _ => async }
  | takes _ _ _ found =>
    exact { tokened with tasks := fun _ => tokened.tasks (List.ne_nil_of_mem (List.mem_of_getElem? found)) }
  | refuses _ why =>
    refine { tokened with issued := fun _ running fits => ?_ }
    rcases why with aborting | issued | exceeds
    · exact absurd (running.symm.trans aborting) nofun
    · exact issued
    · exact absurd fits (Nat.not_le_of_lt exceeds)
  | issues _ _ none =>
    simp only [none, Bool.toNat_false, Nat.add_zero] at atMost exactly
    exact { tokened with
      atMost := Nat.add_le_add_right atMost 1
      exactly := fun running => congrArg (· + 1) (exactly running)
      issued := fun _ _ _ => rfl
      outstanding := fun _ => rfl }
  | @pushes due events owed pushed =>
    rw [owed] at atMost exactly
    rcases State.tokens_of_pushed pushed with ⟨closed, same⟩ | one
    · refine { tokened with atMost := ?_, exactly := fun running => ?_ }
      · simp only [State.tokens, same] at atMost ⊢
        omega
      · exact absurd (running.symm.trans (tokened.closed closed)) nofun
    · have counted : events.countP SessionEvent.isToken = p.state.tokens + 1 := one
      refine { tokened with atMost := ?_, exactly := fun running => ?_ }
      · simp only [State.tokens] at atMost counted ⊢
        omega
      · have exactly := exactly running
        simp only [State.tokens] at exactly counted ⊢
        omega
  | parks owed =>
    rw [owed] at atMost exactly
    refine { tokened with atMost := ?_, exactly := fun running => ?_ }
    · simp only [State.tokens] at atMost ⊢
      omega
    · have exactly := exactly running
      simp only [State.tokens] at exactly ⊢
      omega
  | unparks parked =>
    rw [parked] at atMost exactly
    refine { tokened with atMost := ?_, exactly := fun running => ?_ }
    · simp only [State.tokens] at atMost ⊢
      omega
    · have exactly := exactly running
      simp only [State.tokens] at exactly ⊢
      omega
  | subscribes _ _ opening => exact { tokened with outstanding := fun _ => tokened.outstanding opening }
  | quits | numbers => exact { tokened with outstanding := nofun }
  | accepts _ opening =>
    have issued := tokened.outstanding opening
    rw [issued] at atMost exactly
    refine { tokened with
      atMost := ?_, exactly := fun running => ?_, issued := nofun, outstanding := nofun }
    · rw [List.length_append]
      exact atMost
    · rw [List.length_append]
      exact exactly running
  | @acknowledges _ firstId usage _ _ _ _ _ _ _ _ _ _ _ freed =>
    refine { tokened with issued := fun settled running fits => ?_ }
    obtain ⟨settled, unreleased⟩ := Bool.and_eq_true_iff.mp settled
    rw [Option.isNone_iff_eq_none.mp unreleased] at freed
    exact tokened.issued settled running (freed ▸ fits)
  | @reports events pushed =>
    have same : events.countP SessionEvent.isToken = p.state.tokens :=
      (State.tokens_of_pushed pushed).elim And.right id
    refine { tokened with atMost := ?_, exactly := fun running => ?_ }
    · simp only [State.tokens, same]
      exact atMost
    · simp only [State.tokens, same]
      exact exactly running
  | begins first => exact absurd (tokened.first.symm.trans first) nofun
  | releases => exact { tokened with issued := nofun }
  | _ => exact { tokened with }

theorem Fresh.move (fresh : Fresh p) (moved : Move env event start p q) : Fresh q ∨ Tokened env q := by
  have idle := fresh.toIdle.move moved
  cases moved with
  | accepts _ opening => exact absurd (fresh.opening.symm.trans opening) nofun
  | issues unsettled => exact absurd (fresh.settled.symm.trans unsettled) nofun
  | pushes owed | parks owed => exact absurd (fresh.nothingDue.symm.trans owed) nofun
  | unparks parked => exact absurd (fresh.noTokens.2.1.symm.trans parked) nofun
  | expires | aborts => exact .inl { idle, fresh with closed := fun _ => rfl }
  | marks closing =>
    refine .inl { idle, fresh with closed := fun closed => ?_ }
    rcases closing with same | aborting
    · subst same
      exact fresh.closed closed
    · exact aborting
  | @reports events pushed =>
    have same : events.countP SessionEvent.isToken = p.state.tokens :=
      (State.tokens_of_pushed pushed).elim And.right id
    exact .inl { idle, fresh with noTokens := ⟨same.trans fresh.noTokens.1, fresh.noTokens.2⟩ }
  | begins =>
    have balance : p.state.tokens + p.state.scheduledTokenEvents + (p.due + 1) =
        p.state.accepted.length + true.toNat := by
      rw [fresh.noTokens.1, fresh.noTokens.2.1, fresh.noTokens.2.2, fresh.nothingDue]
      rfl
    exact .inr ⟨rfl, fresh.closed, balance.le, fun _ => balance, fun _ _ _ => rfl,
      fun _ => rfl, fun busy => absurd fresh.compressing busy⟩
  | _ => exact .inl { idle, fresh with }

/-- The tokens inside a reaction to an event that follows the rules. -/
structure Tokens (env : Environment) (start : State) (p : Point) : Prop where
  idle : start.firstTokenSent = false → Idle p
  tokens : Fresh p ∨ Tokened env p

theorem Tokens.move (tokens : Tokens env start p) (moved : Move env event start p q) :
    Tokens env start q where
  idle unsent := (tokens.idle unsent).move moved
  tokens := by
    rcases tokens.tokens with fresh | tokened
    · exact fresh.move moved
    · exact .inr (tokened.move moved)

theorem Throws.rested (throws : Throws env event start p after)
    (reached : At env event start p) (rules : TokenRules env start event) (tokens : Tokens env start p)
    (tasks : start.compressing ≠ [] → env.settings.compressionExecutorIsAsync = true) :
    p.due = 0 ∧ p.settled = true := by
  have cleared := throws.not_flushing reached rules.quiet.1
  have none := throws.no_block reached rules.quiet
  cases throws with
  | refused sends _ ready unsupported several =>
    constructor
    · rcases sends.due with nothing | ⟨now, message, written⟩ | unsent
      · exact nothing
      · have flushes : event.mayFlush = true := by rw [written]; rfl
        rcases rules.silent now message written with fit | ⟨async, coded, plain, unencoded⟩
        · have supported := (reached.blocksFit flushes fit).fit.takes_top ready several
          exact absurd (unsupported.symm.trans supported) nofun
        · rcases sends.skips flushes with inline | raw | encoded | ⟨_, other, same, encoded⟩
          · exact absurd (async.symm.trans inline.1) nofun
          · exact absurd raw coded
          · exact absurd (plain.symm.trans encoded) nofun
          · cases written.symm.trans same
            rw [unencoded] at encoded
            contradiction
      · exact absurd (tokens.idle unsent).packed (State.top_ne_nil ready.topmost)
    · rw [← Bool.not_eq_false]
      intro unsettled
      obtain ⟨sync, flushing | busy⟩ := sends.unsettled unsettled
      · exact absurd (cleared.symm.trans flushing) nofun
      · exact absurd (sync.symm.trans (tasks busy)) nofun
  | uncoded _ held => exact absurd (none.symm.trans held) nofun
  | rejected _ idle | called idle =>
    rw [idle]
    exact ⟨rfl, rfl⟩

theorem Tokens.thrown {after : State} (tokens : Tokens env start p)
    (rested : p.due = 0 ∧ p.settled = true) (throws : Throws env event start p after)
    (none : p.block = none) (cleared : p.flushing = false) :
    Fresh { state := after } ∨ Tokened env { state := after } := by
  have idle : Fresh { state := p.state } ∨ Tokened env { state := p.state } := by
    have tokens := tokens.tokens
    obtain ⟨state, opening, request, block, flushing, settled, due, reports⟩ := p
    obtain ⟨rfl, rfl⟩ := rested
    subst none cleared
    rcases tokens with fresh | tokened
    · exact .inl { fresh with opening := rfl }
    · exact .inr { tokened with outstanding := nofun }
  cases throws with
  | called =>
    rcases idle with fresh | tokened
    · exact .inl { fresh with }
    · exact .inr { tokened with }
  | _ => exact idle

theorem tokens_start (tokens : Fresh { state := start } ∨ Tokened env { state := start })
    (rules : TokenRules env start event) : Tokens env start (.start event start) := by
  rcases tokens with fresh | tokened
  · have opening : (Point.start event start).opening = false := by
      cases event with
      | write now message =>
        have held : start.accepted.length < start.tokens := rules.held now message rfl
        rw [show start.tokens = 0 from fresh.noTokens.1] at held
        exact absurd held (Nat.not_lt_zero _)
      | _ => rfl
    exact ⟨fun _ => { fresh.toIdle with opening }, .inl { fresh with opening }⟩
  · refine ⟨fun unsent => absurd (tokened.first.symm.trans unsent) nofun,
      .inr { tokened with outstanding := fun opening => ?_ }⟩
    cases event with
    | write now message =>
      have held : start.accepted.length < start.tokens := rules.held now message rfl
      have atMost : start.tokens + start.scheduledTokenEvents + 0 ≤
        start.accepted.length + start.continuationTokenIssued.toNat := tokened.atMost
      have issued : start.continuationTokenIssued.toNat ≠ 0 := by omega
      exact (Bool.not_eq_false _).mp fun none => issued (congrArg Bool.toNat none)
    | _ => contradiction

theorem tokens_of_reaches (reached : Reaches env (TokenRules env) state) :
    Fresh { state } ∨ Tokened env { state } := by
  refine (reached.carried (fun state => Fresh { state } ∨ Tokened env { state })
    (fun start _ => Tokens env start) (fun _ => True) ?_ ?_).2
  · exact .inl ⟨⟨rfl, rfl, rfl, rfl, rfl, rfl, rfl, rfl, rfl⟩, ⟨rfl, rfl⟩, ⟨rfl, rfl, rfl⟩, rfl, nofun⟩
  · intro start event _ tokens rules
    have tasks (busy : start.compressing ≠ []) : env.settings.compressionExecutorIsAsync = true := by
      rcases tokens with fresh | tokened
      · exact absurd fresh.compressing busy
      · exact tokened.tasks busy
    exact {
      enters := tokens_start tokens rules
      moves := fun _ moved tokens => tokens.move moved
      leaves := fun tokens => tokens.tokens
      thrown := fun reached tokens throws =>
        tokens.thrown (throws.rested reached rules tokens tasks) throws
          (throws.no_block reached rules.quiet) (throws.not_flushing reached rules.quiet.1)
      fails := fun _ _ => trivial }

/-- At most one token is outstanding.  From the first token on one is outstanding
whenever memory allows, and so whenever the session holds no more bytes than the limit. -/
theorem continuation_token_outstanding (env : Environment) (state : State)
    (reached : Reaches env (TokenRules env) state) :
    state.tokens + state.scheduledTokenEvents ≤ state.accepted.length + 1 ∧
      (state.firstTokenSent = true → state.aborting = false →
        state.memoryUsage ≤ env.settings.maxMemoryUsage → state.TokenOutstanding) ∧
      (state.firstTokenSent = true → state.aborting = false →
        state.holdings.bytes ≤ env.settings.maxMemoryUsage → state.TokenOutstanding) := by
  have tokens := tokens_of_reaches reached
  have outstanding (first : state.firstTokenSent = true) (running : state.aborting = false)
      (fits : state.memoryUsage ≤ env.settings.maxMemoryUsage) : state.TokenOutstanding := by
    rcases tokens with fresh | tokened
    · exact absurd (fresh.unissued.1.symm.trans first) nofun
    · have exactly : state.tokens + state.scheduledTokenEvents + 0 = _ := tokened.exactly running
      rw [tokened.issued rfl running fits] at exactly
      exact Nat.lt_of_succ_le exactly.symm.le
  refine ⟨?_, outstanding, fun first running fits => outstanding first running ?_⟩
  · rcases tokens with fresh | tokened
    · rw [show state.tokens = 0 from fresh.noTokens.1,
        show state.scheduledTokenEvents = 0 from fresh.noTokens.2.1]
      exact Nat.zero_le _
    · exact tokened.atMost.trans (Nat.add_le_add_left state.continuationTokenIssued.toNat_le _)
  · have charged := (charged_of_reaches (reached.mono fun _ _ rules => rules.quiet)).2
    rw [← charged.exactly running]
    exact fits

/-- Whether an event follows the rules in a session that compresses plain messages on
another thread. -/
def tokenRulesCheck (state : State) : Event → Bool
  | .write _ message => decide state.UserHoldsToken &&
      !state.currentBatch.hasCodec && message.codec.isNone
  | _ => true

theorem tokenRules_of_check (state : State) (event : Event)
    (checked : tokenRulesCheck state event = true) : TokenRules asynchronousSession state event where
  quiet := ⟨fun _ => .inl rfl, fun _ _ _ _ => rfl⟩
  held := by
    intro now message written
    rw [written, tokenRulesCheck, Bool.and_eq_true, Bool.and_eq_true] at checked
    exact of_decide_eq_true checked.1.1
  silent := by
    intro now message written
    rw [written, tokenRulesCheck, Bool.and_eq_true, Bool.and_eq_true] at checked
    exact .inr ⟨rfl, by decide, by simpa using checked.1.2, by simpa using checked.2⟩

theorem continuation_token_outstanding_out_of_order :
    ∃ state, Reaches asynchronousSession (TokenRules asynchronousSession) state ∧
      (state.firstTokenSent = true ∧ state.aborting = false ∧
        state.memoryUsage ≤ asynchronousSession.settings.maxMemoryUsage ∧
        state.accepted.length = 2) ∧ state.TokenOutstanding := by
  obtain ⟨state, reached, first, running, within, two⟩ : ∃ state,
      Reaches asynchronousSession (TokenRules asynchronousSession) state ∧
      state.firstTokenSent = true ∧ state.aborting = false ∧
      state.memoryUsage ≤ asynchronousSession.settings.maxMemoryUsage ∧ state.accepted.length = 2 :=
    exists_reachable outOfOrderEvents
      ⟨permitted_of_checked tokenRules_of_check (by decide +kernel), by decide +kernel⟩
  exact ⟨state, reached, ⟨first, running, within, two⟩,
    (continuation_token_outstanding _ state reached).2.1 first running within⟩

def rawSession : Environment where
  settings := { codec := .raw, batchFlushMessageCount := 2, directWriteToPartition := false }

/-- The second write issues a token, throws when its block is refused, and never pushes
the event. -/
theorem refused_batch_loses_token :
    ∃ state, Reaches rawSession (fun state event =>
        ∀ now message, event = .write now message → state.UserHoldsToken) state ∧
      state.firstTokenSent = true ∧ state.aborting = false ∧
      state.memoryUsage ≤ rawSession.settings.maxMemoryUsage ∧ ¬ state.TokenOutstanding := by
  have allowed : checked (react rawSession) (fun state event => match event with
      | .write _ _ => decide state.UserHoldsToken
      | _ => true) {} refusedBatchEvents = true := by decide +kernel
  refine exists_reachable refusedBatchEvents ⟨permitted_of_checked ?_ allowed, by decide +kernel⟩
  intro state event held now message written
  rw [written] at held
  exact of_decide_eq_true held

end YdbSdk.Topic.WriteSession
