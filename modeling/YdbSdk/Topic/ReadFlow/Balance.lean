import YdbSdk.Topic.ReadFlow.Accounts

namespace YdbSdk.Topic.ReadFlow

open YdbSdk.Control YdbSdk.Data List

/-! # The balance of a session

What the session counts is spread over its infos and over the calls that wait for its
lock.  `Sound` allows for amounts that no info and no call stands for: they are zero
between events unless a response was refused half way.
-/

namespace Call

def compressedShare : Call → Int
  | .onUserRetrievedEvent _ _ => 0
  | .onDecompressionTaskCanceled _ sourceSize _ => sourceSize
  | .onDecompressionInfoDestroy compressedSize _ _ => compressedSize

def decompressedShare : Call → Int
  | .onUserRetrievedEvent _ decompressedSize => decompressedSize
  | .onDecompressionTaskCanceled _ _ _ => 0
  | .onDecompressionInfoDestroy _ decompressedSize _ => decompressedSize

def serverShare : Call → Int
  | .onUserRetrievedEvent _ _ => 0
  | .onDecompressionTaskCanceled _ _ serverBytesSize => serverBytesSize
  | .onDecompressionInfoDestroy _ _ serverBytesSize => serverBytesSize

structure Sound (call : Call) : Prop where
  compressed : 0 ≤ call.compressedShare
  decompressed : 0 ≤ call.decompressedShare

end Call

def State.holds (state : State) (ofInfo : DataDecompressionInfo → Int) (ofCall : Call → Int) : Int :=
  (state.infos.map ofInfo).sum + (state.calls.map ofCall).sum

def State.compressedHeld (state : State) : Int :=
  state.holds DataDecompressionInfo.compressedShare Call.compressedShare

def State.decompressedHeld (state : State) : Int :=
  state.holds DataDecompressionInfo.decompressedShare Call.decompressedShare

def State.serverHeld (state : State) : Int :=
  state.holds DataDecompressionInfo.serverShare Call.serverShare

/-- The counters of a session are right up to the lost amounts.  An aborting session no
longer counts what the user takes, and no longer keeps its budget. -/
structure Sound (env : Environment) (lostBytes lostSize : Int) (state : State) : Prop where
  infos : ∀ info ∈ state.infos, info.Sound
  calls : ∀ call ∈ state.calls, call.Sound
  compressed : state.compressedDataSize = state.compressedHeld + lostSize
  decompressed : state.aborting = false → state.decompressedDataSize = state.decompressedHeld
  covered : state.decompressedHeld ≤ state.decompressedDataSize
  budget : state.aborting = false → env.useMigrationProtocol = false →
    state.readSizeBudget + state.readSizeServerDelta + state.serverHeld + lostBytes =
      env.readBufferSize

def State.accounts (state : State) :
    List DataDecompressionInfo × List Call × Int × Int × Int × Int × Bool :=
  (state.infos, state.calls, state.compressedDataSize, state.decompressedDataSize,
    state.readSizeBudget, state.readSizeServerDelta, state.aborting)

section

variable {env : Environment} {lostBytes lostSize : Int} {before after state : State}

theorem Sound.of_accounts (sound : Sound env lostBytes lostSize before)
    (same : after.accounts = before.accounts) : Sound env lostBytes lostSize after := by
  simp only [State.accounts, Prod.mk.injEq] at same
  obtain ⟨infos, calls, compressed, decompressed, budget, delta, aborting⟩ := same
  have held : ∀ ofInfo ofCall, after.holds ofInfo ofCall = before.holds ofInfo ofCall := by
    intro ofInfo ofCall
    rw [State.holds, infos, calls, State.holds]
  refine ⟨infos ▸ sound.infos, calls ▸ sound.calls, ?_, ?_, ?_, ?_⟩
  · rw [compressed, State.compressedHeld, held]
    exact sound.compressed
  · rw [aborting, decompressed, State.decompressedHeld, held]
    exact sound.decompressed
  · rw [decompressed, State.decompressedHeld, held]
    exact sound.covered
  · rw [aborting, budget, delta, State.serverHeld, held]
    exact sound.budget

theorem State.info_cases (state : State) (index : Nat) :
    state.infos[index]? = some (state.info index) ∨
      (state.info index = {} ∧ ∀ change, state.infos.modify index change = state.infos) := by
  cases found : state.infos[index]? with
  | some info =>
    simp [State.info, found]
  | none =>
    right
    refine ⟨by simp [State.info, found], fun change => ?_⟩
    rw [modify_eq_set_getElem?, found]
    rfl

theorem State.infoSound (state : State) (sound : ∀ info ∈ state.infos, info.Sound) (index : Nat) :
    (state.info index).Sound := by
  rcases state.info_cases index with here | ⟨empty, _⟩
  · exact sound _ (mem_of_getElem? here)
  · exact empty ▸ .empty

theorem State.holds_exchange
    (infos : after.infos = before.infos.modify index change)
    (calls : after.calls = before.calls ++ made) (blank : before.info index = {} → change {} = {})
    (ofInfo : DataDecompressionInfo → Int) (ofCall : Call → Int) :
    after.holds ofInfo ofCall = before.holds ofInfo ofCall - ofInfo (before.info index) +
      ofInfo (change (before.info index)) + (made.map ofCall).sum := by
  rw [State.holds, infos, calls, map_append, sum_append, State.holds]
  rcases before.info_cases index with found | ⟨empty, unchanged⟩
  · have moved := sum_map_modify ofInfo change found
    omega
  · rw [unchanged, empty, blank empty]
    omega

theorem State.holds_take {index : Nat} {pending : Call} (found : before.calls[index]? = some pending)
    (infos : after.infos = before.infos) (calls : after.calls = before.calls.eraseIdx index)
    (ofInfo : DataDecompressionInfo → Int) (ofCall : Call → Int) :
    after.holds ofInfo ofCall = before.holds ofInfo ofCall - ofCall pending := by
  have taken := sum_map_eraseIdx ofCall found
  rw [State.holds, infos, calls, State.holds]
  omega

theorem State.holds_nonneg
    (infosNonneg : ∀ info, 0 ≤ ofInfo info) (callsNonneg : ∀ call ∈ state.calls, 0 ≤ ofCall call) :
    0 ≤ state.holds ofInfo ofCall := by
  have infos : 0 ≤ (state.infos.map ofInfo).sum := by
    apply sum_nonneg
    intro share member
    obtain ⟨info, _, rfl⟩ := mem_map.mp member
    exact infosNonneg info
  have calls : 0 ≤ (state.calls.map ofCall).sum := by
    apply sum_nonneg
    intro share member
    obtain ⟨call, here, rfl⟩ := mem_map.mp member
    exact callsNonneg call here
  unfold State.holds
  omega

theorem Sound.nonneg (sound : Sound env lostBytes 0 state) :
    0 ≤ state.compressedDataSize ∧ 0 ≤ state.decompressedDataSize := by
  have compressed : 0 ≤ state.compressedHeld :=
    State.holds_nonneg DataDecompressionInfo.compressedShare_nonneg
      fun call member => (sound.calls call member).compressed
  have decompressed : 0 ≤ state.decompressedHeld :=
    State.holds_nonneg DataDecompressionInfo.decompressedShare_nonneg
      fun call member => (sound.calls call member).decompressed
  have counted := sound.compressed
  have covered := sound.covered
  omega

theorem Sound.exchange (sound : Sound env lostBytes lostSize before) (index : Nat)
    (change : DataDecompressionInfo → DataDecompressionInfo) (made : List Call)
    (infos : after.infos = before.infos.modify index change)
    (calls : after.calls = before.calls ++ made) (aborting : after.aborting = before.aborting)
    (blank : before.info index = {} → change {} = {})
    (changed : (before.info index).Sound → (change (before.info index)).Sound)
    (callsSound : ∀ call ∈ made, call.Sound)
    (compressed : after.compressedDataSize + (before.info index).compressedShare =
      before.compressedDataSize + (change (before.info index)).compressedShare +
        (made.map Call.compressedShare).sum)
    (decompressed : after.decompressedDataSize + (before.info index).decompressedShare =
      before.decompressedDataSize + (change (before.info index)).decompressedShare +
        (made.map Call.decompressedShare).sum)
    (server : after.readSizeBudget + after.readSizeServerDelta +
        (change (before.info index)).serverShare + (made.map Call.serverShare).sum + lostAfter =
      before.readSizeBudget + before.readSizeServerDelta + (before.info index).serverShare +
        lostBytes) : Sound env lostAfter lostSize after := by
  have held := State.holds_exchange infos calls blank
  have heldCompressed := held DataDecompressionInfo.compressedShare Call.compressedShare
  have heldDecompressed := held DataDecompressionInfo.decompressedShare Call.decompressedShare
  have heldServer := held DataDecompressionInfo.serverShare Call.serverShare
  have balance := sound.compressed
  have covered := sound.covered
  refine ⟨?_, ?_, ?_, fun running => ?_, ?_, fun running protocol => ?_⟩
  · intro info member
    rw [infos] at member
    rcases before.info_cases index with found | ⟨_, unchanged⟩
    · rw [modify_eq_set_getElem?, found] at member
      rcases mem_or_eq_of_mem_set member with member | rfl
      · exact sound.infos info member
      · exact changed (sound.infos _ (mem_of_getElem? found))
    · rw [unchanged] at member
      exact sound.infos info member
  · intro call member
    rw [calls, mem_append] at member
    rcases member with member | member
    · exact sound.calls call member
    · exact callsSound call member
  · unfold State.compressedHeld at balance ⊢
    omega
  · have equal := sound.decompressed (aborting ▸ running)
    unfold State.decompressedHeld at equal ⊢
    omega
  · unfold State.decompressedHeld at covered ⊢
    omega
  · have equal := sound.budget (aborting ▸ running) protocol
    unfold State.serverHeld at equal ⊢
    omega

theorem Sound.shift {lostAfter : Int} {info : Nat} {change : Account → Int} {made : List Call}
    {changed : DataDecompressionInfo → DataDecompressionInfo}
    (sound : Sound env lostBytes lostSize before)
    (shifts : (∀ task ∈ (before.info info).tasks, task.Sound) →
      Shifts (before.info info).tasks (changed (before.info info)).tasks change)
    (blank : before.info info = {} → changed {} = {})
    (unplanned : (changed (before.info info)).unplanned = (before.info info).unplanned)
    (infos : after.infos = before.infos.modify info changed)
    (calls : after.calls = before.calls ++ made) (aborting : after.aborting = before.aborting)
    (callsSound : ∀ call ∈ made, call.Sound)
    (compressedPart : (changed (before.info info)).compressedDataSize =
      (before.info info).compressedDataSize + change .compressedPart)
    (decompressedPart : (changed (before.info info)).decompressedDataSize =
      (before.info info).decompressedDataSize + change .decompressedPart)
    (compressed : after.compressedDataSize = before.compressedDataSize + change .compressedShare +
      (made.map Call.compressedShare).sum)
    (decompressed : after.decompressedDataSize = before.decompressedDataSize +
      change .decompressedShare + (made.map Call.decompressedShare).sum)
    (server : after.readSizeBudget + after.readSizeServerDelta +
        (changed (before.info info)).serverBytesSize + change .serverShare +
        (made.map Call.serverShare).sum + lostAfter =
      before.readSizeBudget + before.readSizeServerDelta + (before.info info).serverBytesSize +
        lostBytes) : Sound env lostAfter lostSize after := by
  obtain ⟨counts, kept⟩ := shifts (before.infoSound sound.infos info).tasks
  have ofCompressedPart := counts .compressedPart
  have ofDecompressedPart := counts .decompressedPart
  have ofCompressed := counts .compressedShare
  have ofDecompressed := counts .decompressedShare
  have ofServer := counts .serverShare
  dsimp only [Account.weight] at ofCompressedPart ofDecompressedPart ofCompressed ofDecompressed ofServer
  refine sound.exchange info changed made infos calls aborting blank ?_ callsSound ?_ ?_ ?_
  · intro infoSound
    have compressedCount := infoSound.compressed
    have decompressedCount := infoSound.decompressed
    exact ⟨kept infoSound.tasks, by omega, by omega⟩
  · unfold DataDecompressionInfo.compressedShare
    omega
  · unfold DataDecompressionInfo.decompressedShare
    omega
  · unfold DataDecompressionInfo.serverShare
    omega

theorem Sound.take (sound : Sound env lostBytes lostSize state)
    (found : state.calls[index]? = some pending) :
    Sound env (lostBytes + pending.serverShare) (lostSize + pending.compressedShare)
        { state with
          calls := state.calls.eraseIdx index
          decompressedDataSize := state.decompressedDataSize - pending.decompressedShare } ∧
      pending.decompressedShare ≤ state.decompressedDataSize ∧ pending.Sound := by
  have taken := @State.holds_take state { state with
    calls := state.calls.eraseIdx index
    decompressedDataSize := state.decompressedDataSize - pending.decompressedShare } index pending
    found rfl rfl
  have heldCompressed := taken DataDecompressionInfo.compressedShare Call.compressedShare
  have heldDecompressed := taken DataDecompressionInfo.decompressedShare Call.decompressedShare
  have heldServer := taken DataDecompressionInfo.serverShare Call.serverShare
  have callsSound : ∀ call ∈ state.calls.eraseIdx index, call.Sound := fun call member =>
    sound.calls call (mem_of_mem_eraseIdx member)
  have compressed := sound.compressed
  have covered := sound.covered
  unfold State.compressedHeld at compressed
  unfold State.decompressedHeld at covered
  refine ⟨⟨sound.infos, callsSound, ?_, fun running => ?_, ?_, fun running protocol => ?_⟩, ?_,
    sound.calls pending (mem_of_getElem? found)⟩
  · rw [State.compressedHeld]
    change state.compressedDataSize = _
    omega
  · have equal := sound.decompressed running
    rw [State.decompressedHeld]
    unfold State.decompressedHeld at equal
    change state.decompressedDataSize - pending.decompressedShare = _
    omega
  · rw [State.decompressedHeld]
    change _ ≤ state.decompressedDataSize - pending.decompressedShare
    omega
  · have equal := sound.budget running protocol
    rw [State.serverHeld]
    unfold State.serverHeld at equal
    change state.readSizeBudget + state.readSizeServerDelta + _ + _ = _
    omega
  · have others : 0 ≤ state.holds DataDecompressionInfo.decompressedShare Call.decompressedShare -
        pending.decompressedShare := by
      rw [← heldDecompressed]
      exact State.holds_nonneg DataDecompressionInfo.decompressedShare_nonneg
        fun call member => (callsSound call member).decompressed
    omega

theorem Sound.subtract (sound : Sound env lostBytes (lostSize + size) state) :
    Sound env lostBytes lostSize
      { state with compressedDataSize := state.compressedDataSize - size } := by
  obtain ⟨infos, calls, compressed, decompressed, covered, budget⟩ := sound
  refine ⟨infos, calls, ?_, decompressed, covered, budget⟩
  change state.compressedDataSize - size = state.compressedHeld + lostSize
  omega

theorem Sound.of_aborting (sound : Sound env otherBytes lostSize state)
    (aborting : state.aborting = true) : Sound env lostBytes lostSize state :=
  { sound with budget := fun running => by simp [aborting] at running }

/-- An aborting session does not count any more what the user takes, so its counter is too
large from then on. -/
theorem Sound.ignore
    (sound : Sound env lostBytes lostSize state)
    (found : state.calls[index]? = some (.onUserRetrievedEvent info decompressedSize))
    (aborting : state.aborting = true) :
    Sound env lostBytes lostSize { state with calls := state.calls.eraseIdx index } := by
  obtain ⟨taken, _, callSound⟩ := sound.take found
  simp only [Call.compressedShare, Call.decompressedShare, Int.add_zero] at taken
  have nonneg : 0 ≤ decompressedSize := callSound.decompressed
  have ending {claim : Prop} (running : state.aborting = false) : claim := by
    simp [aborting] at running
  obtain ⟨infos, calls, compressed, _, covered, _⟩ := taken
  refine ⟨infos, calls, compressed, fun running => ending running, ?_,
    fun running => ending running⟩
  exact Int.le_trans covered (by dsimp only; omega)

theorem Sound.addInfo
    (sound : Sound env (lostBytes + info.serverShare) (lostSize + info.compressedShare) state)
    (infoSound : info.Sound) (decompressed : info.decompressedShare = 0) :
    Sound env lostBytes lostSize { state with infos := state.infos ++ [info] } := by
  have held : ∀ ofInfo ofCall, State.holds { state with infos := state.infos ++ [info] } ofInfo ofCall =
      state.holds ofInfo ofCall + ofInfo info := by
    simp only [State.holds, map_append, map_cons, map_nil, sum_append,
      sum_cons, sum_nil]
    omega
  obtain ⟨infos, calls, counted, equal, covered, budget⟩ := sound
  unfold State.compressedHeld at counted
  unfold State.serverHeld at budget
  refine ⟨forall_mem_append.mpr ⟨infos, forall_mem_singleton.mpr infoSound⟩, calls, ?_,
    fun running => ?_, ?_, fun running protocol => ?_⟩
  · rw [State.compressedHeld, held]
    dsimp only
    omega
  · rw [State.decompressedHeld, held, decompressed, Int.add_zero]
    exact equal running
  · rw [State.decompressedHeld, held, decompressed, Int.add_zero]
    exact covered
  · have balance := budget running protocol
    rw [State.serverHeld, held]
    dsimp only
    omega

end

end YdbSdk.Topic.ReadFlow
