import Gopher.Kafka.Handover

-- One CPU, on which nothing comes between the look at an item and taking it.

namespace Gopher.Kafka.Handover

open Lib Xdp

-- Packets come from clients with an address, and the system calls of the collector succeed.
def Single (cpu : ℕ) (_ : List Action) (state : State) : Action → Prop
  | .receive other packet =>
      other = cpu ∧
        match xdpParserFunc state.port packet with
        | .ok found => found.srcIp ≠ 0
        | .error _ => True
  | .runProg other => other = cpu
  | .runCollect ok => ok = true
  | .refreshPortMap _ => True

-- What the collector has before it copies a record.
def Collector.Blank : Collector → Prop
  | look _ data | ended data | copy _ _ _ _ data => data.srcIp = 0
  | idle | clear .. | broke _ => True

structure SingleInv (cpu : ℕ) (state : State) : Prop where
  inv : Inv (fun _ _ _ => True) (fun data => data.srcIp ≠ 0) state
  only : ∀ other, other ≠ cpu → state.progs other = none
  claims : ∀ found pos, state.progs cpu = some ⟨found, .claim pos⟩ →
    (state.items pos).ctrl = .empty
  address : ∀ prog, state.progs cpu = some prog → prog.found.srcIp ≠ 0
  blank : state.collector.Blank

variable {cpu : ℕ} {state : State}

theorem SingleInv.allowed (h : SingleInv cpu state) {done : List Action} {action : Action}
    (hsingle : Single cpu done state action) : Allowed [] state action := by
  cases action with
  | receive other packet => trivial
  | refreshPortMap port => trivial
  | runProg other =>
      intro found pos hprog
      obtain rfl : other = cpu := hsingle
      exact h.claims found pos hprog
  | runCollect ok =>
      have hblank := h.blank
      have hhand := h.inv.hand
      rw [Allowed]
      cases hcollector : state.collector with
      | broke data => exact hhand data hcollector
      | ended data =>
          rw [hcollector] at hblank
          exact hblank
      | _ => trivial

theorem srcIp_write (found : Found) (base : KafkaData) :
    (found.write base).srcIp = found.srcIp := by
  obtain ⟨data, heq, -⟩ := write_eq found base
  rw [heq]

-- What is published has the address of its packet.
theorem SingleInv.inv_step (h : SingleInv cpu state) {done : List Action} {action : Action}
    (hsingle : Single cpu done state action) :
    Inv (fun _ _ _ => True) (fun data => data.srcIp ≠ 0) (step state action) := by
  refine Handover.inv_step h.inv (h.allowed hsingle) fun found pos hpublishes => ?_
  obtain ⟨other, rfl, hprog⟩ := hpublishes
  obtain rfl : other = cpu := hsingle
  refine ⟨fun base _ => ⟨trivial, ?_⟩, fun _ _ _ _ => trivial⟩
  rw [srcIp_write]
  exact h.address _ hprog

-- The program of the CPU goes on, with the record that it has.
theorem SingleInv.setProg (h : SingleInv cpu state) {next : State} {prog : Option Prog}
    (hinv : Inv (fun _ _ _ => True) (fun data => data.srcIp ≠ 0) next)
    (hprogs : next.progs = Function.update state.progs cpu prog)
    (hcollector : next.collector = state.collector)
    (hclaims : ∀ started ∈ prog, ∀ pos, started.place = .claim pos →
      (next.items pos).ctrl = .empty)
    (haddress : ∀ started ∈ prog, started.found.srcIp ≠ 0) : SingleInv cpu next := by
  have hprog : next.progs cpu = prog := by rw [hprogs, Function.update_self]
  refine ⟨hinv, fun other hother => ?_, fun found pos heq => ?_, fun started heq => ?_, ?_⟩
  · rw [hprogs, Function.update_of_ne hother]
    exact h.only other hother
  · exact hclaims _ (hprog.symm.trans heq) pos rfl
  · exact haddress started (hprog.symm.trans heq)
  · rw [hcollector]
    exact h.blank

theorem SingleInv.runProg (h : SingleInv cpu state)
    (hinv : Inv (fun _ _ _ => True) (fun data => data.srcIp ≠ 0) (runProg cpu state)) :
    SingleInv cpu (runProg cpu state) := by
  rw [Handover.runProg] at hinv ⊢
  split at hinv
  case h_1 hprog => exact h
  case h_2 found hprog =>
      exact h.setProg hinv rfl rfl (fun started hstarted => by cases hstarted)
        fun started hstarted => by cases hstarted
  case h_3 found pos left hprog =>
      have hfound := h.address _ hprog
      refine h.setProg hinv rfl rfl (fun started hstarted place hplace => ?_)
        fun started hstarted => ?_
      · cases hstarted
        dsimp only at hplace
        split_ifs at hplace with hempty
        cases hplace
        exact hempty
      · cases hstarted
        exact hfound
  case h_4 found pos hprog =>
      have hfound := h.address _ hprog
      refine h.setProg hinv rfl rfl (fun started hstarted place hplace => ?_)
        fun started hstarted => ?_
      · cases hstarted
        cases hplace
      · cases hstarted
        exact hfound
  case h_5 found pos store left hprog =>
      have hfound := h.address _ hprog
      refine h.setProg hinv rfl rfl (fun started hstarted place hplace => ?_)
        fun started hstarted => ?_
      · cases hstarted
        cases hplace
      · cases hstarted
        exact hfound
  case h_6 found pos hprog =>
      exact h.setProg hinv rfl rfl (fun started hstarted => by cases hstarted)
        fun started hstarted => by cases hstarted

theorem SingleInv.receive (h : SingleInv cpu state) {packet : Packet}
    (haddress : match xdpParserFunc state.port packet with
      | .ok found => found.srcIp ≠ 0
      | .error _ => True) :
    SingleInv cpu (receive cpu packet state) := by
  have hinv := inv_receive h.inv cpu packet
  rw [Handover.receive] at hinv ⊢
  split_ifs at hinv ⊢ with hbusy
  · exact h
  · cases hparsed : xdpParserFunc state.port packet with
    | error stop => exact h
    | ok found =>
        rw [hparsed] at hinv haddress
        refine h.setProg hinv rfl rfl (fun started hstarted place hplace => ?_)
          fun started hstarted => ?_
        · cases hstarted
          cases hplace
        · cases hstarted
          exact haddress

-- The collector empties what is full, and nothing else.
theorem SingleInv.setCollector (h : SingleInv cpu state) {next : State}
    (hinv : Inv (fun _ _ _ => True) (fun data => data.srcIp ≠ 0) next)
    (hprogs : next.progs = state.progs)
    (hitems : ∀ pos, (state.items pos).ctrl = .empty → (next.items pos).ctrl = .empty)
    (hblank : next.collector.Blank) : SingleInv cpu next :=
  ⟨hinv, hprogs ▸ h.only, fun found pos heq => hitems pos (h.claims found pos (hprogs ▸ heq)),
    hprogs ▸ h.address, hblank⟩

theorem SingleInv.runCollect (h : SingleInv cpu state)
    (hinv : Inv (fun _ _ _ => True) (fun data => data.srcIp ≠ 0) (runCollect true state)) :
    SingleInv cpu (runCollect true state) := by
  have hblank := h.blank
  rw [Handover.runCollect] at hinv ⊢
  split at hinv
  case h_1 heq => exact h.setCollector hinv rfl (fun _ => id) rfl
  case h_2 data heq =>
      rw [heq] at hblank
      exact h.setCollector hinv rfl (fun _ => id) hblank
  case h_3 pos left data heq =>
      rw [heq] at hblank
      split_ifs at hinv ⊢
      · exact h.setCollector hinv rfl (fun _ => id) hblank
      · exact h.setCollector hinv rfl (fun _ => id) hblank
  case h_4 pos left word words value data heq =>
      rw [heq] at hblank
      exact h.setCollector hinv rfl (fun _ => id) hblank
  case h_5 pos left value data heq => exact h.setCollector hinv rfl (fun _ => id) trivial
  case h_6 pos left data heq =>
      refine h.setCollector hinv rfl (fun place hempty => ?_) trivial
      by_cases hplace : place = pos
      · rw [hplace]
        exact congrArg Item.ctrl (items_setCtrl .empty)
      · exact (congrArg Item.ctrl (items_setCtrl_of_ne hplace .empty)).trans hempty
  case h_7 data heq =>
      split_ifs at hinv ⊢
      · exact h.setCollector hinv rfl (fun _ => id) trivial
      · exact h.setCollector hinv rfl (fun _ => id) trivial
  case h_8 data heq =>
      split_ifs at hinv ⊢
      · exact h.setCollector hinv rfl (fun _ => id) trivial
      · exact h.setCollector hinv rfl (fun _ => id) trivial

theorem singleInv_initial (cpu : ℕ) : SingleInv cpu State.initial where
  inv := inv_initial fun _ => trivial
  only _ _ := rfl
  claims _ _ heq := by cases heq
  address _ heq := by cases heq
  blank := trivial

theorem SingleInv.step (h : SingleInv cpu state) {done : List Action} {action : Action}
    (hsingle : Single cpu done state action) : SingleInv cpu (step state action) := by
  have hinv := h.inv_step hsingle
  cases action with
  | receive other packet =>
      obtain ⟨rfl, haddress⟩ := hsingle
      exact h.receive haddress
  | runProg other =>
      obtain rfl : other = cpu := hsingle
      exact h.runProg hinv
  | runCollect ok =>
      obtain rfl : ok = true := hsingle
      exact h.runCollect hinv
  | refreshPortMap port => exact ⟨hinv, h.only, h.claims, h.address, h.blank⟩

-- What one CPU stores is waiting, in hand or collected, once each and unchanged.
theorem handover_conserved_single (cpu : ℕ) (actions : List Action)
    (hsingle : EachStep step State.initial (Single cpu) actions) :
    Throughout step State.initial (fun _ state => Conserved state) actions := by
  refine hsingle.throughout (fun _ state => SingleInv cpu state) (singleInv_initial cpu)
    (fun _ _ h => h.inv.conserved) fun _ state action h hstep => ?_
  exact h.step hstep

instance (cpu : ℕ) (done : List Action) (state : State) :
    ∀ action, Decidable (Single cpu done state action)
  | .receive other packet =>
      match hparsed : xdpParserFunc state.port packet with
      | .ok found => decidable_of_iff (other = cpu ∧ found.srcIp ≠ 0) (by rw [Single, hparsed])
      | .error stop => decidable_of_iff (other = cpu ∧ True) (by rw [Single, hparsed])
  | .runProg other => inferInstanceAs (Decidable (other = cpu))
  | .runCollect ok => inferInstanceAs (Decidable (ok = true))
  | .refreshPortMap _ => isTrue trivial

-- Three messages for the topic `orders`, from the client `a`.
def ordersFrame : Packet :=
  List.replicate 12 0 ++ [8, 0] ++
  [0x45, 0, 0, 0, 0, 0, 0, 0, 64, 6, 0, 0, 10, 0, 0, 2, 10, 0, 0, 1] ++
  [0xc0, 0, 0x23, 0x84, 0, 0, 0, 0, 0, 0, 0, 0, 0x50, 0, 0, 0, 0, 0, 0, 0] ++
  [0, 0, 0, 0, 0, 0, 0, 8, 0, 0, 0, 0, 0, 1, 97] ++ List.replicate 12 0 ++
  [0, 6, 111, 114, 100, 101, 114, 115] ++ List.replicate 69 0 ++ [0, 0, 0, 3]

def ordersRun : List Action :=
  [.refreshPortMap 0x8423, .receive 0 ordersFrame] ++ List.replicate 15 (.runProg 0) ++
    List.replicate 15 (.runCollect true)

theorem handover_conserved_single_orders :
    Throughout step State.initial (fun _ state => Conserved state) ordersRun :=
  handover_conserved_single 0 ordersRun (by decide +kernel)

end Gopher.Kafka.Handover
