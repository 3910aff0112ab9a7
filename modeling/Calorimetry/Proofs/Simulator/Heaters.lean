import Calorimetry.Proofs.Simulator.Pacing
import Mathlib.Data.List.Induction

/-! The heaters of the simulated head. All handles to it share one bank, so what is done through any of them is
one run of events, with reads and waits in between. To switch one heater on (`Heaters.only`) or all off
(`Heaters.off`) is a command like any other. The heaters are those of the last command that was accepted, and
which commands are refused is told by the events before: those given without a link, and the one whose number was
chosen, counted among all that were to switch something on. -/

namespace Calorimetry
variable {α : Type} [Scalar α]

/-- A bank without a link refuses everything. With one it refuses a command that switches something on and has
the chosen number, which then counts as given, and it accepts all others. -/
theorem SimulatedBank.command_cases (b : SimulatedBank) (heaters : Heaters) :
    b.connected = false ∧ b.command heaters = (.error .disconnected, b) ∨
      b.connected = true ∧ heaters.anyOn = true ∧ b.failOn = some (b.switchOns + 1) ∧
        b.command heaters = (.error (.rejected s!"switch-on command {b.switchOns + 1} refused"),
          { b with switchOns := b.switchOns + 1 }) ∨
      b.connected = true ∧ ¬(heaters.anyOn = true ∧ b.failOn = some (b.switchOns + 1)) ∧
        b.command heaters = (.ok (), { b with
          heaters := heaters
          switchOns := b.switchOns + if heaters.anyOn then 1 else 0 }) := by
  cases linked : b.connected with
  | false =>
    left
    simp [command, linked]
  | true =>
    right
    cases on : heaters.anyOn with
    | false => simp [command, linked, on]
    | true =>
      by_cases chosen : b.failOn = some (b.switchOns + 1)
      · simp [command, linked, on, chosen]
      · simp [command, linked, on, chosen]

private theorem SimulatedBank.command_fst (b : SimulatedBank) (heaters : Heaters) : (b.command heaters).1 =
    if b.connected = false then .error .disconnected
    else if heaters.anyOn = true ∧ b.failOn = some (b.switchOns + 1) then
      .error (.rejected s!"switch-on command {b.switchOns + 1} refused")
    else .ok () := by
  rcases b.command_cases heaters with ⟨off, told⟩ | ⟨on, some, chosen, told⟩ | ⟨on, other, told⟩
  · rw [told, if_pos off]
  · rw [told, if_neg (by simp [on]), if_pos ⟨some, chosen⟩]
  · rw [told]
    exact ((if_neg (by simp [on])).trans (if_neg other)).symm

private theorem SimulatedBank.command_snd {b : SimulatedBank} {heaters : Heaters} {e : HardwareError}
    (refused : (b.command heaters).1 = .error e) :
    ∃ given, (b.command heaters).2 = { b with switchOns := given } := by
  rcases b.command_cases heaters with ⟨_, told⟩ | ⟨_, _, _, told⟩ | ⟨_, _, told⟩
  · exact ⟨b.switchOns, by rw [told]⟩
  · exact ⟨b.switchOns + 1, by rw [told]⟩
  · rw [told] at refused
    cases refused

namespace HeadEvent

def link? : HeadEvent → Option Bool
  | .connect on => some on
  | _ => none

def number? : HeadEvent → Option Nat
  | .refuse switchOn => some switchOn
  | _ => none

def switchesOn : HeadEvent → Bool
  | .command heaters => heaters.anyOn
  | _ => false

def linked (events : List HeadEvent) : Bool := (events.filterMap link?).getLastD true

def chosen? (events : List HeadEvent) : Option Nat := (events.filterMap number?).getLast?

/-- How many of the events `counts` holds of, each with the events before it. -/
def tally (counts : List HeadEvent → HeadEvent → Bool) (events : List HeadEvent) : Nat :=
  events.zipIdx.countP fun p => counts (events.take p.2) p.1

/-- How many commands were to switch something on while there was a link, refused or not. -/
def switchOns (events : List HeadEvent) : Nat := tally (fun before e => linked before && e.switchesOn) events

private theorem linked_concat (events : List HeadEvent) (e : HeadEvent) :
    linked (events ++ [e]) = e.link?.getD (linked events) := by
  rw [linked, List.filterMap_append]
  cases state : e.link? with
  | none => simp [state, linked]
  | some on => simp [state]

private theorem chosen?_concat (events : List HeadEvent) (e : HeadEvent) :
    chosen? (events ++ [e]) = e.number?.or (chosen? events) := by
  rw [chosen?, List.filterMap_append]
  cases number : e.number? with
  | none => simp [number, chosen?]
  | some n => simp [number]

private theorem tally_concat (counts : List HeadEvent → HeadEvent → Bool) (events : List HeadEvent)
    (e : HeadEvent) :
    tally counts (events ++ [e]) = tally counts events + if counts events e then 1 else 0 := by
  have earlier : events.zipIdx.countP (fun p => counts ((events ++ [e]).take p.2) p.1) =
      tally counts events := by
    refine List.countP_congr fun p member => ?_
    have inside : p.2 < events.length := List.snd_lt_of_mem_zipIdx member
    rw [List.take_append_of_le_length (Nat.le_of_lt inside)]
  rw [tally, List.zipIdx_append, List.countP_append, earlier, List.zipIdx_singleton, List.countP_singleton,
    Nat.zero_add, List.take_left']
  rfl

private theorem switchOns_concat (events : List HeadEvent) (e : HeadEvent) :
    switchOns (events ++ [e]) = switchOns events + if linked events && e.switchesOn then 1 else 0 :=
  tally_concat _ events e

private theorem switchOns_le_append (events later : List HeadEvent) :
    switchOns events ≤ switchOns (events ++ later) := by
  induction later using List.reverseRecOn with
  | nil => simp
  | append_singleton later e ih =>
    rw [← List.append_assoc, switchOns_concat]
    exact Nat.le_trans ih (Nat.le_add_right _ _)

end HeadEvent

namespace SimulatedHead
open HeadEvent (linked chosen? tally switchOns)

def accepted? (h : SimulatedHead α) : HeadEvent → Option Heaters
  | .command heaters => (h.command heaters).1.toOption.map fun _ => heaters
  | _ => none

def accepted (h : SimulatedHead α) : List HeadEvent → List Heaters
  | [] => []
  | e :: rest => (h.accepted? e).toList ++ (h.undergo e).accepted rest

def rejects (h : SimulatedHead α) : HeadEvent → Bool
  | .command heaters =>
    match (h.command heaters).1 with
    | .error (.rejected _) => true
    | _ => false
  | _ => false

/-- How many commands of a run are refused for their number while that number is `n`. -/
def rejections (c : SimulatorSettings α) (n : Nat) (events : List HeadEvent) : Nat :=
  tally (fun before e => chosen? before = some n && ((start c).after before).rejects e) events

/-! ## One event -/

private theorem read_bank (h : SimulatedHead α) (timeout : Duration) : (h.read timeout).2.bank = h.bank := by
  rcases h.read_cases timeout with ⟨_, answer⟩ | ⟨_, ⟨_, answer⟩ | ⟨_, answer⟩ | ⟨_, answer⟩⟩ <;>
    simp [answer, advance, deliver]

private theorem undergo_bank (h : SimulatedHead α) (e : HeadEvent) : (h.undergo e).bank = {
    heaters := (h.accepted? e).getD h.bank.heaters
    connected := e.link?.getD h.bank.connected
    switchOns := h.bank.switchOns + if h.bank.connected && e.switchesOn then 1 else 0
    failOn := e.number?.or h.bank.failOn } := by
  cases e with
  | read timeout =>
    refine (h.read_bank timeout).trans ?_
    simp [accepted?, HeadEvent.link?, HeadEvent.number?, HeadEvent.switchesOn]
  | command heaters =>
    change (h.bank.command heaters).2 = {
      heaters := ((h.bank.command heaters).1.toOption.map fun _ => heaters).getD h.bank.heaters
      connected := h.bank.connected
      switchOns := h.bank.switchOns + if h.bank.connected && heaters.anyOn then 1 else 0
      failOn := h.bank.failOn }
    rcases h.bank.command_cases heaters with ⟨off, told⟩ | ⟨on, some, _, told⟩ | ⟨on, _, told⟩
    · have same : h.bank = { h.bank with connected := false } := by rw [← off]
      simpa [told, off, Except.toOption] using same
    · simp [told, on, some, Except.toOption]
    · simp [told, on, Except.toOption]
  | _ =>
    simp [undergo, accepted?, HeadEvent.link?, HeadEvent.number?, HeadEvent.switchesOn, advance]

private theorem rejects_iff (h : SimulatedHead α) (e : HeadEvent) : h.rejects e = true ↔
    h.bank.connected = true ∧ e.switchesOn = true ∧ h.bank.failOn = some (h.bank.switchOns + 1) := by
  cases e with
  | command heaters =>
    have answer : (h.command heaters).1 = (h.bank.command heaters).1 := rfl
    rw [rejects, answer, HeadEvent.switchesOn]
    rcases h.bank.command_cases heaters with ⟨off, told⟩ | ⟨on, some, chosen, told⟩ | ⟨on, other, told⟩
    · simp [told, off]
    · simp [told, on, some, chosen]
    · simpa [told, on] using other
  | _ => simp [rejects, HeadEvent.switchesOn]

/-! ## A whole run -/

private theorem after_concat (h : SimulatedHead α) (events : List HeadEvent) (e : HeadEvent) :
    h.after (events ++ [e]) = (h.after events).undergo e := List.foldl_concat ..

private theorem accepted_concat (h : SimulatedHead α) (events : List HeadEvent) (e : HeadEvent) :
    h.accepted (events ++ [e]) = h.accepted events ++ ((h.after events).accepted? e).toList := by
  induction events generalizing h with
  | nil => exact List.append_nil _
  | cons first rest ih =>
    rw [List.cons_append, accepted, accepted, ih, List.append_assoc]
    rfl

/-- The events before tell everything about the bank. -/
theorem after_bank (c : SimulatorSettings α) (events : List HeadEvent) : ((start c).after events).bank = {
    heaters := ((start c).accepted events).getLastD Heaters.off
    connected := linked events
    switchOns := switchOns events
    failOn := chosen? events } := by
  induction events using List.reverseRecOn with
  | nil => rfl
  | append_singleton events e ih =>
    have heaters : ((start c).accepted (events ++ [e])).getLastD Heaters.off =
        (((start c).after events).accepted? e).getD (((start c).accepted events).getLastD Heaters.off) := by
      rw [accepted_concat]
      cases ((start c).after events).accepted? e with
      | none => simp
      | some last => simp
    rw [after_concat, undergo_bank, heaters, HeadEvent.linked_concat, HeadEvent.switchOns_concat,
      HeadEvent.chosen?_concat, ih]

private theorem after_command (c : SimulatorSettings α) (events : List HeadEvent) (heaters : Heaters) :
    (((start c).after events).command heaters).1 =
      if linked events = false then .error .disconnected
      else if heaters.anyOn = true ∧ chosen? events = some (switchOns events + 1) then
        .error (.rejected s!"switch-on command {switchOns events + 1} refused")
      else .ok () := by
  refine (SimulatedBank.command_fst _ heaters).trans ?_
  rw [after_bank]

private theorem after_rejects_iff (c : SimulatorSettings α) (events : List HeadEvent) (e : HeadEvent) :
    ((start c).after events).rejects e = true ↔
      linked events = true ∧ e.switchesOn = true ∧ chosen? events = some (switchOns events + 1) := by
  rw [rejects_iff, after_bank]

/-- A number is given to one command only, so a number that was met is not met again. -/
private theorem rejections_cases (c : SimulatorSettings α) (n : Nat) (events : List HeadEvent) :
    rejections c n events = 0 ∨ rejections c n events = 1 ∧ n ≤ switchOns events := by
  induction events using List.reverseRecOn with
  | nil => exact .inl rfl
  | append_singleton events e ih =>
    have counted : rejections c n (events ++ [e]) = rejections c n events +
        if chosen? events = some n ∧ ((start c).after events).rejects e = true then 1 else 0 := by
      simp [rejections, HeadEvent.tally_concat]
    have given := HeadEvent.switchOns_le_append events [e]
    rw [counted]
    split
    · next refused =>
      -- The number that was met is the one after the count, so it was not met before and is counted now.
      obtain ⟨linked, some, met⟩ := (after_rejects_iff c events e).mp refused.2
      obtain rfl : n = switchOns events + 1 := Option.some.inj (refused.1.symm.trans met)
      rw [HeadEvent.switchOns_concat, linked, some]
      simp only [Bool.and_true, if_true]
      omega
    · omega

private theorem after_command_of_rejects (c : SimulatorSettings α) {events : List HeadEvent} {e : HeadEvent}
    (later : List HeadEvent) (rejected : ((start c).after events).rejects e = true)
    (same : chosen? (events ++ e :: later) = chosen? events)
    (link : linked (events ++ e :: later) = true) (heaters : Heaters) :
    (((start c).after (events ++ e :: later)).command heaters).1 = .ok () := by
  obtain ⟨linkedBefore, some, met⟩ := (after_rejects_iff c events e).mp rejected
  have passed : switchOns events + 1 ≤ switchOns (events ++ e :: later) := by
    have given := HeadEvent.switchOns_le_append (events ++ [e]) later
    rw [HeadEvent.switchOns_concat, linkedBefore, some, List.append_assoc] at given
    exact given
  -- The number is still the same, but the count has passed it.
  have other : chosen? (events ++ e :: later) ≠ Option.some (switchOns (events ++ e :: later) + 1) := by
    rw [same, met, ne_eq, Option.some.injEq]
    omega
  rw [after_command, if_neg (by simp [link]), if_neg fun refused => other refused.2]

private theorem after_command_again (c : SimulatorSettings α) {events : List HeadEvent} {heaters : Heaters}
    (rejected : ((start c).after events).rejects (.command heaters) = true) :
    ((((start c).after events).command heaters).2.command heaters).1 = .ok () := by
  have link := ((after_rejects_iff c events _).mp rejected).1
  have again := after_command_of_rejects c [] rejected (HeadEvent.chosen?_concat events _)
    ((HeadEvent.linked_concat events _).trans link) heaters
  rwa [after_concat] at again

/-- Whatever is done with a head and through whichever handle, its heaters are those of the last command that
was accepted, and off before the first. A command is refused without a link, or if it switches something on and
has the number chosen last among all such commands that were given with a link, and then only the count of these
has changed. No number is met twice: the same command is accepted at once, and as long as the number stays chosen
so is every later one that is given with a link. To switch everything off with a link is never refused. -/
theorem heaters_follow_commands (c : SimulatorSettings α) (events : List HeadEvent) :
    let h := (start c).after events
    let number := switchOns events + 1
    h.bank.heaters = ((start c).accepted events).getLastD Heaters.off ∧
      (∀ heaters, (h.command heaters).1 =
        if linked events = false then .error .disconnected
        else if heaters.anyOn = true ∧ chosen? events = some number then
          .error (.rejected s!"switch-on command {number} refused")
        else .ok ()) ∧
      (∀ heaters e, (h.command heaters).1 = .error e →
        ∃ given, (h.command heaters).2 = { h with bank := { h.bank with switchOns := given } }) ∧
      (∀ n, rejections c n events ≤ 1) ∧
      (∀ heaters, h.rejects (.command heaters) = true →
        ((h.command heaters).2.command heaters).1 = .ok () ∧
          ∀ later again, let now := events ++ .command heaters :: later
            chosen? now = chosen? events → linked now = true →
              (((start c).after now).command again).1 = .ok ()) ∧
      (linked events = true → (h.command Heaters.off).1 = .ok ()) := by
  intro h number
  refine ⟨congrArg SimulatedBank.heaters (after_bank c events), after_command c events, ?_, ?_, ?_, ?_⟩
  · intro heaters e refused
    obtain ⟨given, spared⟩ := SimulatedBank.command_snd (b := h.bank) refused
    exact ⟨given, congrArg (fun bank => { h with bank }) spared⟩
  · intro n
    rcases rejections_cases c n events with none | ⟨one, _⟩ <;> omega
  · intro heaters rejected
    refine ⟨after_command_again c rejected, fun later again => ?_⟩
    intro now same link
    exact after_command_of_rejects c later rejected same link again
  · intro link
    rw [after_command, if_neg (by simp [link]), if_neg (by simp [Heaters.off, Heaters.anyOn])]

/-- The second command that switches something on is to be refused. One is given without a link in between, and
two that switch everything off, of which one is refused. -/
def mishaps : List HeadEvent := [
  .refuse 2, .command (Heaters.only 1), .connect false, .command (Heaters.only 3), .command Heaters.off,
  .connect true, .command Heaters.off, .read 5]

theorem heaters_follow_commands_mishaps :
    let h := (start brief).after mishaps
    let refused := Heaters.only 2
    let now := mishaps ++ [.command refused, .read 0]
    (start brief).accepted mishaps = [Heaters.only 1, Heaters.off] ∧ h.bank.heaters = Heaters.off ∧
      switchOns mishaps = 1 ∧
      (h.command refused).1 = .error (.rejected "switch-on command 2 refused") ∧
      (∃ given, (h.command refused).2 = { h with bank := { h.bank with switchOns := given } }) ∧
      rejections brief 2 now = 1 ∧ rejections brief 2 now ≤ 1 ∧ h.rejects (.command refused) = true ∧
      ((h.command refused).2.command refused).1 = .ok () ∧
      chosen? now = chosen? mishaps ∧ linked now = true ∧
      (((start brief).after now).command (Heaters.only 3)).1 = .ok () ∧
      linked mishaps = true ∧ (h.command Heaters.off).1 = .ok () := by
  intro h refused now
  obtain ⟨state, answers, spares, _, again, off⟩ := heaters_follow_commands brief mishaps
  obtain ⟨_, _, _, once, _⟩ := heaters_follow_commands brief now
  have answer : (h.command refused).1 = .error (.rejected "switch-on command 2 refused") := answers refused
  have rejected : h.rejects (.command refused) = true := by decide
  have same : chosen? now = chosen? mishaps := by decide
  have link : linked now = true ∧ linked mishaps = true := by decide
  obtain ⟨retried, others⟩ := again refused rejected
  exact ⟨by decide, state, by decide, answer, spares _ _ answer, by decide, once 2, rejected, retried, same,
    link.1, others [.read 0] (Heaters.only 3) same link.1, link.2, off link.2⟩

end SimulatedHead
end Calorimetry
