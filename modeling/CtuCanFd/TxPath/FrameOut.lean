import CtuCanFd.Core.FrameSent
import CtuCanFd.TxPath.Backup
import CtuCanFd.TxPath.Coherence

/-!
# From the TXT buffer to the bus

While a transmitter is in a frame the arbitrator is locked on one buffer. Its metadata are those
the core uses, its RAM is not written, and the words protocol control addresses come from it one
cycle later. So the frame on the bus is the frame in the words of the buffer.
-/

open SyncMachine

/-! ## Release of the buffer -/

namespace CanCore

open ProtocolControl

variable {c : Config} {s : State} {i : Input}

theorem inFrame_iff {st : PcState} :
    st.inFrame = true ↔ st.inPlain = true ∨ behindData st = true := by
  cases st <;> decide

theorem inPause_of_inFrame {st : PcState} (h : st.inFrame = true) : st.inPause = false := by
  revert h
  cases st <;> decide

/-- A frame is entered at its start only. -/
theorem enter_frame (h' : (step c s i).pc.currState.inFrame = true) :
    s.err.errFrmReq = false ∧ (s.pc.currState.inFrame = true ∨
      (s.pc.currState.inPause = true ∧ pcRxTrigger s = true ∧
        (step c s i).pc.currState.inPlain = true)) := by
  rcases inFrame_iff.mp h' with hp | hb
  · obtain ⟨he, hq | ⟨hq, ht⟩⟩ := enter_plain (c := c) (q := s.pc) (i := pcInput c s i) hp
    · exact ⟨he, .inl (inFrame_iff.mpr (.inl hq))⟩
    · exact ⟨he, .inr ⟨hq, ht, hp⟩⟩
  · obtain ⟨he, hq⟩ := enter_behindHeader (c := c) (s := s) (i := i) (by
      simp only [behindData, Bool.and_eq_true] at hb
      exact hb.1)
    refine ⟨he, .inl ?_⟩
    rcases hq with hq | ⟨hq, -⟩
    · revert hq
      cases s.pc.currState <;> decide
    · rw [hq]
      rfl

/-- The buffer is not released as long as the unit transmits the frame. -/
theorem unlock_next (he : s.err.errFrmReq = false)
    (hx' : isTransmitter (step c s i) = true) (h' : (step c s i).pc.currState.inFrame = true) :
    (step c s i).pc.txtbHwCmdQ.unlock = false := by
  cases ht : pcRxTrigger s
  · simp [step, ProtocolControl.step, ctrlSignalUpd, ht, he, TxtbHwCmd.unlock]
  rw [(Locking.command_noErr he ht).2, Bool.or_eq_false_iff]
  constructor
  · by_contra hl
    have hlost := Locking.lost_role (c := c) (s := s) (i := i) (by simpa using hl)
    exact absurd (hlost.symm.trans hx') (by decide)
  · by_contra hend
    simp only [Bool.not_eq_false, Bool.and_eq_true, beq_iff_eq] at hend
    obtain ⟨⟨⟨hq, hz⟩, hr⟩, -⟩ := hend
    have hst : (step c s i).pc.currState = nextState c s.pc (pcInput c s i) :=
      step_sample ht he fun hs => by
        rcases hs with ⟨hs, -⟩ | ⟨hs, -⟩ <;> rw [hq] at hs <;> cases hs
    have hnext : nextState c s.pc (pcInput c s i) = .intermission := by
      simp [nextState, he, hq, hz, hr]
    rw [hst, hnext] at h'
    cases h'

end CanCore

/-! ## One buffer -/

namespace TxtBuffer

variable {g : Generics} {d : Nat} {s : State} {i : Input}

/-- A buffer that is locked stays in progress until it is released or fails. -/
theorem inProgress_next (h : s.currState.inProgress = true ∨
      (s.currState = .ready ∧ (hwCmd i).lock = true)) (hf : goToFailed i = false)
    (hp : txtbParityErrorValid g s i = false) (hu : (hwCmd i).unlock = false) :
    (step g d s i).currState.inProgress = true := by
  simp only [ProtocolControl.TxtbHwCmd.unlock, Bool.or_eq_false_iff] at hu
  obtain ⟨⟨⟨hv, he⟩, ha⟩, hfl⟩ := hu
  show (nextState g s i).inProgress = true
  rcases h with h | ⟨h, hl⟩
  · cases hs : s.currState <;> rw [hs] at h <;> first | exact absurd h (by decide) | skip
    all_goals
      cases hab : abortApplied s i <;>
        simp [nextState, hs, hf, hp, hv, hfl, he, ha, arblOrErr, hab, TxtBufState.inProgress]
  · cases hab : abortApplied s i <;> simp [nextState, h, hf, hp, hl, hab, TxtBufState.inProgress]

/-- The word addressed is read, or the output does not change. -/
theorem dataOut_next (ht : i.mrTstControlTmaena = false) :
    (step g d s i).ram.dataOut = s.ram.mem i.txtbPortBAddress ∨
      (i.txtbPortBClkEn = false ∧ (step g d s i).ram.dataOut = s.ram.dataOut) := by
  cases hc : ramClkEn g s i
  · refine .inr ⟨?_, by simp [step, nextRam, hc]⟩
    simp only [ramClkEn, Bool.or_eq_false_iff] at hc
    exact hc.1.1.2
  · exact .inl (by simp [step, nextRam, hc, tstEna, ht])

end TxtBuffer

namespace TxPath

open CanCore (TranMeta FrameBit isTransmitter pcRxTrigger behindData frameBits nbs seen)
open ProtocolControl (Config)
open RxBuffer (Word)

/-! ## Environment -/

/-- What is recorded beside the transmit path: time and mode of the last cycle, the triggers of
the core, and the frame as it is sampled. -/
structure Observer where
  watch : Watch
  clock : CanCore.Clock
  frame : List FrameBit

def Observer.next (g : Generics) (c : Config) (o : Observer) (s : State) (i : Input) :
    Observer where
  watch := .of i
  clock := o.clock.next s.core (coreInput g c s i)
  frame := seen c o.frame s.core (coreInput g c s i)

def observedStep (g : Generics) (c : Config) : State × Observer → Input → State × Observer :=
  watched (step g c) (Observer.next g c)

def observedStart (mem : Nat → Nat → Word) (dataOut : Nat → Word) (w : Watch) (sent : Bool)
    (v : List FrameBit) : State × Observer := (reset mem dataOut, ⟨w, ⟨4, sent, none⟩, v⟩)

/-- The software side is guarded, and retransmission limitation is not switched. Triggers and
bus-off are as the core expects them. A lock command finds the arbitrator in the selection and
the buffer ready; in the cycle in which a transmission starts with a dominant bit of another node
no other buffer is committed. The buffer of a transmission has no parity error. -/
structure Operated (g : Generics) (c : Config) (p : State × Observer) (i : Input) : Prop
    extends CanCore.Triggers p.2.clock i.core, CanCore.StaysOn p.1.core i.core where
  guarded : Guarded g c (p.1, p.2.watch) i
  limit : i.mrSettingsRtrle = c.mrSettingsRtrle
  followed : (txtbHwCmd p.1).lock = true →
    p.1.arb.fsm ≠ .idle ∧ (current p.1).currState = .ready
  alone : (txtbHwCmd (step g c p.1 i)).lock = true →
    (step g c p.1 i).core.pc.currState ≠ .sof →
    (TxArbitrator.fsmOut g.count p.1.arb (arbInput g c p.1 i)).commitDblBufs = false
  sound : isTransmitter p.1.core = true → p.1.core.pc.currState.inFrame = true →
    i.core.isBusOff = false ∧
      TxtBuffer.parityMismatch g.txtb (current p.1) (swInput c p.1 i p.1.arb.currTxtbIndex) = false

instance (g : Generics) (c : Config) (p : State × Observer) (i : Input) :
    Decidable (Operated g c p i) :=
  decidable_of_iff
    (CanCore.Triggers p.2.clock i.core ∧ CanCore.StaysOn p.1.core i.core ∧
      Guarded g c (p.1, p.2.watch) i ∧ i.mrSettingsRtrle = c.mrSettingsRtrle ∧
      ((txtbHwCmd p.1).lock = true → p.1.arb.fsm ≠ .idle ∧ (current p.1).currState = .ready) ∧
      ((txtbHwCmd (step g c p.1 i)).lock = true →
        (step g c p.1 i).core.pc.currState ≠ .sof →
        (TxArbitrator.fsmOut g.count p.1.arb (arbInput g c p.1 i)).commitDblBufs = false) ∧
      (isTransmitter p.1.core = true → p.1.core.pc.currState.inFrame = true →
        i.core.isBusOff = false ∧ TxtBuffer.parityMismatch g.txtb (current p.1)
          (swInput c p.1 i p.1.arb.currTxtbIndex) = false))
    ⟨fun ⟨a, b, c, d, e, f, g⟩ => ⟨a, b, c, d, e, f, g⟩,
      fun h => ⟨h.toTriggers, h.toStaysOn, h.guarded, h.limit, h.followed, h.alone, h.sound⟩⟩

/-! ## The buffer of a transmission -/

/-- The buffer is locked and in progress, or will be with the lock command of this cycle, which is
the first one of the frame. -/
structure Held (s : State) : Prop where
  kept : (txtbHwCmd s).unlock = false
  locked : (s.arb.fsm = .locked ∧ (current s).currState.inProgress = true) ∨
    ((txtbHwCmd s).lock = true ∧
      (s.core.pc.currState = .sof ∨ s.core.pc.currState = .baseId))

section Held

variable {g : Generics} {c : Config} {s : State} {o : Observer} {i : Input}

/-- Nothing is committed meanwhile. -/
theorem Held.noCommit (h : Held s) :
    (TxArbitrator.fsmOut g.count s.arb (arbInput g c s i)).commitDblBufs = false := by
  by_contra hc
  obtain ⟨hfsm, hlock, -⟩ := TxArbitrator.commit_cases (by simpa using hc)
  rcases h.locked with ⟨hl, -⟩ | ⟨hl, -⟩
  · exact absurd (hl.symm.trans hfsm) (by decide)
  · exact absurd (hlock.symm.trans hl) (by decide)

theorem Held.current_next (h : Held s) :
    (step g c s i).arb.com = s.arb.com ∧
      current (step g c s i) = (step g c s i).bufs s.arb.currTxtbIndex :=
  Coherence.current_kept h.noCommit

/-- The words of the buffer stay. -/
theorem Held.mem_next (h : Held s) (hcoh : Coherence g o.watch s)
    (hok : Operated g c (s, o) i) :
    (current (step g c s i)).ram.mem = (current s).ram.mem := by
  rw [h.current_next.2]
  exact Coherence.mem_kept hok.guarded hcoh.curr_lt
    (hok.guarded.write (h.locked.imp (·.1) (·.1)))

/-- The arbitrator passes on what the core addresses. -/
theorem Held.reads (h : Held s) (hok : Operated g c (s, o) i)
    (hq : s.core.pc.currState = .dlc ∨ s.core.pc.currState = .data) :
    CanCore.Reads (current s).ram.mem s.core (current s).ram.dataOut
      (current (step g c s i)).ram.dataOut := by
  have hl : s.arb.fsm = .locked := by
    rcases h.locked with ⟨hl, -⟩ | ⟨-, hst⟩
    · exact hl
    · rcases hq with hq | hq <;> rw [hq] at hst <;> rcases hst with hst | hst <;> cases hst
  have haddr : (txtbInput g c s i s.arb.currTxtbIndex).txtbPortBAddress = s.core.pc.txtbPtrQ := by
    simp [txtbInput, TxArbitrator.txtbPortBAddress, TxArbitrator.txArbLocked, hl, arbInput]
  have hclk : (txtbInput g c s i s.arb.currTxtbIndex).txtbPortBClkEn =
      s.core.pc.txtbClkEnQ := by
    simp [txtbInput, TxArbitrator.txtbPortBClkEn, TxArbitrator.txArbLocked, hl, arbInput]
  have hread := TxtBuffer.dataOut_next (g := g.txtb) (d := s.arb.currTxtbIndex)
    (s := current s) (i := txtbInput g c s i s.arb.currTxtbIndex) hok.guarded.test
  rw [haddr, hclk] at hread
  rw [h.current_next.2]
  exact hread

/-- The word at the input of the core is at the output of the RAM. -/
theorem Held.word (h : Held s) (hq : s.core.pc.currState = .dlc ∨ s.core.pc.currState = .data) :
    (coreInput g c s i).tranWord = (current s).ram.dataOut := by
  obtain ⟨hl, hp⟩ : s.arb.fsm = .locked ∧ (current s).currState.inProgress = true := by
    rcases h.locked with hl | ⟨-, hst⟩
    · exact hl
    · rcases hq with hq | hq <;> rw [hq] at hst <;> rcases hst with hst | hst <;> cases hst
  have hm : TxArbitrator.txtbIndexMuxed g.count s.arb (arbInput g c s i) = s.arb.currTxtbIndex := by
    simp [TxArbitrator.txtbIndexMuxed, TxArbitrator.txArbLocked, hl]
  show TxArbitrator.txtbSelectedInput g.count s.arb (arbInput g c s i) = _
  rw [TxArbitrator.txtbSelectedInput, hm]
  exact if_pos (Backed.inProgress_transient hp)

/-- Until protocol control releases the buffer it stays locked. -/
theorem Held.next (h : Held s) (hbmm : c.mrModeBmm = false) (hrom : c.mrModeRom = false)
    (hok : Operated g c (s, o) i) (hx : isTransmitter s.core = true)
    (hq : s.core.pc.currState.inFrame = true)
    (hu' : (txtbHwCmd (step g c s i)).unlock = false) : Held (step g c s i) := by
  obtain ⟨hoff, hpar⟩ := hok.sound hx hq
  refine ⟨hu', .inl ⟨?_, ?_⟩⟩
  · refine TxArbitrator.locked_next ?_ h.kept
    exact h.locked.imp (·.1) fun hl => ⟨(hok.followed hl.1).1, hl.1⟩
  · have hcmd : TxtBuffer.hwCmd (txtbInput g c s i s.arb.currTxtbIndex) = txtbHwCmd s :=
      hwCmd_current rfl
    have hf : TxtBuffer.goToFailed (txtbInput g c s i s.arb.currTxtbIndex) = false := by
      show (((i.core.isBusOff && i.mrSettingsTbfbo) || c.mrModeBmm) || c.mrModeRom) = false
      rw [hoff, hbmm, hrom]
      rfl
    have hp : TxtBuffer.txtbParityErrorValid g.txtb (current s)
        (txtbInput g c s i s.arb.currTxtbIndex) = false := by
      have hpar : TxtBuffer.parityMismatch g.txtb (current s)
          (txtbInput g c s i s.arb.currTxtbIndex) = false := hpar
      simp [TxtBuffer.txtbParityErrorValid, hpar]
    rw [h.current_next.2]
    refine TxtBuffer.inProgress_next (s := current s) ?_ hf hp (hcmd ▸ h.kept)
    exact h.locked.imp (·.2) fun hl => ⟨(hok.followed hl.1).2, hcmd ▸ hl.1⟩

/-- A transmission starts with the lock command. -/
theorem held_start (hcfg : config c i = c) (he : s.core.err.errFrmReq = false)
    (hq : s.core.pc.currState.inPause = true) (ht : pcRxTrigger s.core = true)
    (h' : (step g c s i).core.pc.currState.inPlain = true)
    (hx' : isTransmitter (step g c s i).core = true) : Held (step g c s i) := by
  have hcore : (step g c s i).core = CanCore.step c s.core (coreInput g c s i) := by
    rw [step, hcfg]
  rw [hcore] at h' hx'
  have hlock : (txtbHwCmd (step g c s i)).lock = true := by
    rw [txtbHwCmd, hcore, (CanCore.Locking.command_noErr he ht).1]
    exact CanCore.start_role he hq ht h' hx'
  refine ⟨lock_single hlock, .inr ⟨hlock, ?_⟩⟩
  rw [hcore]
  rcases CanCore.nbs_start (v := []) he hq ht h' with ⟨hst, -⟩ | ⟨hst, -⟩
  · exact .inr hst
  · exact .inl hst

end Held

/-! ## Invariant -/

structure FrameOut (g : Generics) (c : Config) (s : State) (o : Observer) : Prop where
  coherent : Coherence g o.watch s
  following : CanCore.Following c o.clock s.core
  held : isTransmitter s.core = true → s.core.pc.currState.inFrame = true → Held s
  com : ∀ m, o.clock.held = some m → isTransmitter s.core = true →
    s.core.pc.currState.inPlain = true → s.arb.com = m
  sending : CanCore.FrameSending c (current s).ram.mem o.clock s.core o.frame
    ⟨s.arb.com, (current s).ram.dataOut⟩

namespace FrameOut

variable {g : Generics} {c : Config} {s : State} {o : Observer} {i : Input}

theorem of_reset (g : Generics) (c : Config) (mem : Nat → Nat → Word) (dataOut : Nat → Word)
    (w : Watch) (sent : Bool) (v : List FrameBit) :
    FrameOut g c (reset mem dataOut) ⟨w, ⟨4, sent, none⟩, v⟩ where
  coherent := .of_reset g w mem dataOut
  following := .of_reset sent
  held h := by cases h
  com m h := by cases h
  sending := .of_reset c _ sent v _

theorem config_eq (hok : Operated g c (s, o) i) : config c i = c := by
  rw [config, hok.limit]

theorem core_next (hok : Operated g c (s, o) i) :
    (step g c s i).core = CanCore.step c s.core (coreInput g c s i) := by
  rw [step, config_eq hok]

theorem bench (h : FrameOut g c s o) (hok : Operated g c (s, o) i) :
    CanCore.Bench o.clock s.core (coreInput g c s i) where
  sample := hok.sample
  send := hok.send
  held := h.com
  inFrame := hok.inFrame
  inPause := hok.inPause

theorem offers (h : FrameOut g c s o) :
    CanCore.Offers ⟨s.arb.com, (current s).ram.dataOut⟩ s.core (coreInput g c s i) where
  held _ _ := rfl
  word hx hq := by
    refine (h.held hx ?_).word hq
    rcases hq with hq | hq <;> rw [hq] <;> rfl

theorem next_held (h : FrameOut g c s o) (hbmm : c.mrModeBmm = false) (hrom : c.mrModeRom = false)
    (hok : Operated g c (s, o) i) (hx' : isTransmitter (step g c s i).core = true)
    (h' : (step g c s i).core.pc.currState.inFrame = true) : Held (step g c s i) := by
  have hcore := core_next hok
  have hx : isTransmitter (CanCore.step c s.core (coreInput g c s i)) = true := hcore ▸ hx'
  have hst : (CanCore.step c s.core (coreInput g c s i)).pc.currState.inFrame = true := hcore ▸ h'
  obtain ⟨he, hq | ⟨hq, ht, hp⟩⟩ := CanCore.enter_frame hst
  · have hxs := CanCore.FrameSending.transmitter_before (CanCore.inPause_of_inFrame hq) hx
    refine (h.held hxs hq).next hbmm hrom hok hxs hq ?_
    rw [txtbHwCmd, hcore]
    exact CanCore.unlock_next he hx hst
  · exact held_start (config_eq hok) he hq ht (hcore ▸ hp) hx'

theorem next_com (h : FrameOut g c s o) (m : TranMeta)
    (hm : (o.next g c s i).clock.held = some m) : (step g c s i).arb.com = m := by
  simp only [Observer.next, CanCore.Clock.next] at hm
  split at hm
  case isTrue hxq =>
    simp only [Bool.and_eq_true] at hxq
    rw [(h.held hxq.1 (CanCore.inFrame_iff.mpr (.inl hxq.2))).current_next.1]
    exact Option.some.inj hm
  case isFalse => cases hm

/-- The words and the metadata of the buffer one cycle later, in a frame. -/
theorem follows_frame (h : FrameOut g c s o) (hok : Operated g c (s, o) i)
    (hx : isTransmitter s.core = true) (hq : s.core.pc.currState.inFrame = true) :
    CanCore.Follows c (current s).ram.mem ⟨s.arb.com, (current s).ram.dataOut⟩ s.core
      (coreInput g c s i) ⟨(step g c s i).arb.com, (current (step g c s i)).ram.dataOut⟩ where
  taken hp := absurd ((CanCore.inPause_of_inFrame hq).symm.trans hp) (by decide)
  kept _ _ := (h.held hx hq).current_next.1
  reads _ hd := (h.held hx hq).reads hok hd

/-- At the start of a frame nothing has been read yet. -/
theorem follows_start (hok : Operated g c (s, o) i) (he : s.core.err.errFrmReq = false)
    (hq : s.core.pc.currState.inPause = true) (ht : pcRxTrigger s.core = true)
    (hp : (CanCore.step c s.core (coreInput g c s i)).pc.currState.inPlain = true)
    (mem : Nat → Word) :
    CanCore.Follows c mem ⟨s.arb.com, (current s).ram.dataOut⟩ s.core (coreInput g c s i)
      ⟨(step g c s i).arb.com, (current (step g c s i)).ram.dataOut⟩ where
  taken _ hx' hst := by
    have hlock : (txtbHwCmd (step g c s i)).lock = true := by
      rw [txtbHwCmd, core_next hok, (CanCore.Locking.command_noErr he ht).1]
      exact CanCore.start_role he hq ht hp hx'
    exact (Coherence.current_kept (hok.alone hlock (by rw [core_next hok]; exact hst))).1
  kept hn := absurd (hq.symm.trans hn) (by decide)
  reads _ hd := by
    rcases hd with hd | hd <;> rw [hd] at hq <;> cases hq

theorem next_sending (h : FrameOut g c s o) (hena : c.mrSettingsEna = true)
    (htst : c.mrModeTstm = false) (hok : Operated g c (s, o) i) :
    CanCore.FrameSending c (current (step g c s i)).ram.mem (o.next g c s i).clock
      (step g c s i).core (o.next g c s i).frame
      ⟨(step g c s i).arb.com, (current (step g c s i)).ram.dataOut⟩ := by
  have hb := h.bench hok
  rw [core_next hok]
  -- the frame goes on, or it starts
  have hcases : ∀ hx' : isTransmitter (CanCore.step c s.core (coreInput g c s i)) = true,
      (CanCore.step c s.core (coreInput g c s i)).pc.currState.inFrame = true →
      CanCore.FrameSending c (current (step g c s i)).ram.mem o.clock s.core o.frame
          ⟨s.arb.com, (current s).ram.dataOut⟩ ∧
        CanCore.Follows c (current (step g c s i)).ram.mem ⟨s.arb.com, (current s).ram.dataOut⟩
          s.core (coreInput g c s i)
          ⟨(step g c s i).arb.com, (current (step g c s i)).ram.dataOut⟩ := by
    intro hx' h'
    obtain ⟨he, hq | ⟨hq, ht, hp⟩⟩ := CanCore.enter_frame h'
    · have hx := CanCore.FrameSending.transmitter_before (CanCore.inPause_of_inFrame hq) hx'
      rw [(h.held hx hq).mem_next h.coherent hok]
      exact ⟨h.sending, h.follows_frame hok hx hq⟩
    · exact ⟨.of_pause hq _ _, follows_start hok he hq ht hp _⟩
  constructor
  · intro hx' he' hp'
    obtain ⟨hsend, hfol⟩ := hcases hx' (CanCore.inFrame_iff.mpr (.inl hp'))
    exact hsend.next_sends h.following hb hena htst h.offers hfol hx' he' hp'
  · intro hx' he' hp'
    obtain ⟨hsend, hfol⟩ := hcases hx' (CanCore.inFrame_iff.mpr (.inr hp'))
    exact hsend.next_done h.following hb hena htst h.offers hfol hx' he' hp'

theorem step_frameOut (h : FrameOut g c s o) (hena : c.mrSettingsEna = true)
    (htst : c.mrModeTstm = false) (hbmm : c.mrModeBmm = false) (hrom : c.mrModeRom = false)
    (hok : Operated g c (s, o) i) : FrameOut g c (step g c s i) (o.next g c s i) where
  coherent := h.coherent.step_coherence hok.guarded
  following := by
    rw [core_next hok]
    exact h.following.step_following (h.bench hok) hena
  held := h.next_held hbmm hrom hok
  com m hm _ _ := h.next_com m hm
  sending := h.next_sending hena htst hok

/-- The metadata are those in the words of the buffer. -/
theorem com_eq (h : FrameOut g c s o) (hx : isTransmitter s.core = true)
    (hq : s.core.pc.currState.inFrame = true) : s.arb.com = frameMeta (current s).ram.mem := by
  rcases (h.held hx hq).locked with ⟨hl, -⟩ | ⟨hl, -⟩
  · exact (h.coherent.locked hl).1
  · exact (h.coherent.pending hl).1

end FrameOut

/-- In every run, the bits a transmitter has taken without an error are the beginning of the frame
in the words of the buffer it has locked: its format and identifier words and then its data words
in address order. Behind the data field they are the whole frame. -/
theorem buffer_on_bus (g : Generics) (c : Config) (hena : c.mrSettingsEna = true)
    (htst : c.mrModeTstm = false) (hbmm : c.mrModeBmm = false) (hrom : c.mrModeRom = false)
    (mem : Nat → Nat → Word) (dataOut : Nat → Word) (w : Watch) (sent : Bool) (v : List FrameBit)
    (is : List Input)
    (h : Admits (observedStep g c) (Operated g c) (observedStart mem dataOut w sent v) is) :
    let p := run (observedStep g c) (observedStart mem dataOut w sent v) is
    let words := (current p.1).ram.mem
    isTransmitter p.1.core = true → p.1.core.err.errFrmReq = false →
      (p.1.core.pc.currState.inPlain = true →
        ∃ esi, nbs p.2.frame <+: frameBits words ((frameMeta words).header c esi)) ∧
      (behindData p.1.core.pc.currState = true →
        ∃ esi, FrameFormat.header (nbs p.2.frame) = (frameMeta words).header c esi ∧
          (nbs p.2.frame).take (FrameFormat.dataEnd (nbs p.2.frame)) =
            frameBits words ((frameMeta words).header c esi)) := by
  intro p words hx he
  have hinv : FrameOut g c p.1 p.2 :=
    run_invariant (observedStep g c) (Operated g c) (fun p => FrameOut g c p.1 p.2)
      (fun _ _ hq hok => hq.step_frameOut hena htst hbmm hrom hok)
      (.of_reset g c mem dataOut w sent v) is h
  constructor
  · intro hq
    obtain ⟨e, hs, -⟩ := hinv.sending.sends hx he hq
    have hcom := hinv.com_eq hx (CanCore.inFrame_iff.mpr (.inl hq))
    have hpre : nbs p.2.frame <+: frameBits words (p.1.arb.com.header c e) := by
      rw [hs.bits]
      exact CanCore.sentSoFar_isPrefix hs.path
    exact ⟨e, hcom ▸ hpre⟩
  · intro hq
    obtain ⟨e, hpre⟩ := hinv.sending.done hx he hq
    have hcom := hinv.com_eq hx (CanCore.inFrame_iff.mpr (.inr hq))
    have hread := CanCore.frameBits_read (TranMeta.header_wellFormed c p.1.arb.com e) hpre
    rw [hcom] at hread
    exact ⟨e, hread⟩

/-- After integration software writes a frame with one byte to buffer 0 and sets it ready, and the
frame is on the bus. -/
def byteOut : List Input :=
  (List.replicate 11 true).flatMap (bitTime false) ++
    [writeWord 0 0 1, writeWord 0 1 (0b10101010101#11 ++ 0#18).toNat, writeWord 0 2 0,
      writeWord 0 3 0, writeWord 0 4 0x53] ++
    setReady 0 ++ List.replicate 14 quietCycle ++
    (true :: CanCore.byteFrame).flatMap (bitTime true)

theorem buffer_on_bus_byte :
    let p := run (observedStep twoBuffers nominalConfig)
      (observedStart (fun _ _ => 0) (fun _ => 0) ⟨0, false⟩ true []) byteOut
    let words := (current p.1).ram.mem
    words 4 = 0x53 ∧ ∃ esi, (nbs p.2.frame).take (FrameFormat.dataEnd (nbs p.2.frame)) =
      frameBits words ((frameMeta words).header nominalConfig esi) := by
  have hadm : Admits (observedStep twoBuffers nominalConfig) (Operated twoBuffers nominalConfig)
      (observedStart (fun _ _ => 0) (fun _ => 0) ⟨0, false⟩ true []) byteOut := by
    rw [observedStep, step_eq_tabled]
    decide +kernel
  have hrun : (fun p : State × Observer => (isTransmitter p.1.core = true ∧
      p.1.core.err.errFrmReq = false ∧ behindData p.1.core.pc.currState = true) ∧
        (current p.1).ram.mem 4 = 0x53)
      (run (observedStep twoBuffers nominalConfig)
        (observedStart (fun _ _ => 0) (fun _ => 0) ⟨0, false⟩ true []) byteOut) := by
    rw [observedStep, step_eq_tabled]
    decide +kernel
  obtain ⟨⟨hx, he, hq⟩, hword⟩ := hrun
  obtain ⟨esi, -, hbits⟩ := (buffer_on_bus twoBuffers nominalConfig rfl rfl rfl rfl (fun _ _ => 0)
    (fun _ => 0) ⟨0, false⟩ true [] byteOut hadm hx he).2 hq
  exact ⟨hword, esi, hbits⟩

end TxPath
