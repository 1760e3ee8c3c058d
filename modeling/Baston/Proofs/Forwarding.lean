/-
What the forwarder does with the updates of one player.

At any moment a player's updates are the ones published followed by the ones held, in the
order they came in, less what was lost.  An update is lost in two ways only: a hold that
begins while another one has updates in its buffer throws these away, and an update that is
published while its player is routed nowhere goes nowhere.
-/
import Baston.Lib.Trace
import Baston.Gateway.MeshForward

namespace Baston.Gateway.Forwarder

open Assoc Trace Baston.Rage Baston.Zone

variable {F : Type}

/-- One event of the gateway, with what it published. -/
abbrev Handled (F : Type) := Entry (Forwarder F) (Event F) (List (Forwarded F))

/-! ### One player's updates -/

/-- The updates of a player among those published. -/
def updatesOf (source : UInt32) (sent : List (Forwarded F)) : List (ClientStateUpdate F) :=
  (sent.filter fun f => f.source = source).map (·.update)

/-- The update an event brings in for a player. -/
def arriving (source : UInt32) : Event F → List (ClientStateUpdate F)
  | .message _ _ (.update source' u) => if source' = source then [u] else []
  | _ => []

/-- A player's updates in the order they were received. -/
def received (source : UInt32) (past : List (Handled F)) : List (ClientStateUpdate F) :=
  past.reverse.flatMap fun e => arriving source e.op

/-- A player's updates in the order they were published. -/
def published (source : UInt32) (past : List (Handled F)) : List (ClientStateUpdate F) :=
  past.reverse.flatMap fun e => updatesOf source e.answer

/-- A player's updates that wait for the end of a hold. -/
def held (source : UInt32) (s : Forwarder F) : List (ClientStateUpdate F) :=
  ((s.holds.lookup source).map Prod.snd).getD []

theorem received_cons (source : UInt32) (e : Handled F) (past : List (Handled F)) :
    received source (e :: past) = received source past ++ arriving source e.op := by
  simp [received]

theorem published_cons (source : UInt32) (e : Handled F) (past : List (Handled F)) :
    published source (e :: past) = published source past ++ updatesOf source e.answer := by
  simp [published]

/-- Every hold of the player was flushed: its last command about holds is a flush. -/
def Flushed (source : UInt32) : List (Handled F) → Prop
  | [] => True
  | e :: past =>
    match e.op with
    | .message _ _ (.beginHold source') => source' ≠ source ∧ Flushed source past
    | .message _ _ (.flushHold source') => source' = source ∨ Flushed source past
    | _ => Flushed source past

/-- The player does not disconnect. -/
def Stays (source : UInt32) (past : List (Handled F)) : Prop :=
  ∀ e ∈ past, ∀ now zoneAt, e.op ≠ .message now zoneAt (.dropped source)

/-! ### When an update is lost -/

/-- A player with updates to publish has a zone to publish them to. -/
def Routed (source : UInt32) (s : Forwarder F) : Prop := s.routes.zoneOf source ≠ none

/-- An event loses no update of the player: no hold begins over a buffer with updates in it,
and no update is published without a route. -/
def Keeps (source : UInt32) : Event F → Forwarder F → Prop
  | .message now zoneAt (.update source' u), s =>
    source' = source →
      (∃ h, s.holds.lookup source = some h ∧ now - h.1 < handoffHold)
        ∨ Routed source (s.rehome zoneAt source u)
  | .message _ _ (.beginHold source'), s => source' = source → held source s = []
  | .message _ _ (.flushHold source'), s =>
    source' = source → held source s = [] ∨ Routed source s
  | _, _ => True

/-! ### Publishing -/

@[simp] theorem updatesOf_append (source : UInt32) (a b : List (Forwarded F)) :
    updatesOf source (a ++ b) = updatesOf source a ++ updatesOf source b := by
  simp [updatesOf]

@[simp] theorem updatesOf_nil (source : UInt32) :
    updatesOf source ([] : List (Forwarded F)) = [] := rfl

theorem publish_eq_publishAll (source : UInt32) (u : ClientStateUpdate F) (s : Forwarder F) :
    s.publish source u = s.publishAll source [u] := by
  simp [publishAll]

theorem publishAll_append (source : UInt32) (a b : List (ClientStateUpdate F))
    (s : Forwarder F) :
    s.publishAll source a ++ s.publishAll source b = s.publishAll source (a ++ b) := by
  simp [publishAll]

/-- Every update of a routed player is published, in order, and nothing without a route. -/
theorem updatesOf_publishAll (source : UInt32) (s : Forwarder F)
    (updates : List (ClientStateUpdate F)) :
    updatesOf source (s.publishAll source updates)
      = if s.routes.zoneOf source = none then [] else updates := by
  induction updates with
  | nil => simp [publishAll]
  | cons u rest ih =>
      have hcons : s.publishAll source (u :: rest)
          = s.publish source u ++ s.publishAll source rest := rfl
      rw [hcons, updatesOf_append, ih]
      unfold publish
      cases hz : s.routes.zoneOf source with
      | none => simp
      | some zone => simp [updatesOf]

/-- Nothing is published for anyone but the player at hand. -/
theorem updatesOf_publishAll_ne {source source' : UInt32} (h : source' ≠ source)
    (s : Forwarder F) (updates : List (ClientStateUpdate F)) :
    updatesOf source (s.publishAll source' updates) = [] := by
  induction updates with
  | nil => simp [publishAll]
  | cons u rest ih =>
      have hcons : s.publishAll source' (u :: rest)
          = s.publish source' u ++ s.publishAll source' rest := rfl
      rw [hcons, updatesOf_append, ih]
      unfold publish
      cases hz : s.routes.zoneOf source' with
      | none => simp
      | some zone => simp [updatesOf, h]

/-! ### One message, case by case -/

theorem rehome_holds (zoneAt : F → F → Option ZoneId) (source : UInt32)
    (u : ClientStateUpdate F) (s : Forwarder F) :
    (s.rehome zoneAt source u).holds = s.holds := by
  unfold rehome
  by_cases h : source ∈ s.homed
  · rw [if_pos h]
  · rw [if_neg h]
    cases zoneAt u.coords.x u.coords.y with
    | none => rfl
    | some correct =>
        simp only []
        split <;> rfl

section Cases

variable {source : UInt32} {now started : Nat} {zoneAt : F → F → Option ZoneId}
  {u : ClientStateUpdate F} {buf : List (ClientStateUpdate F)} {s : Forwarder F}

theorem handle_update_of_none (h : s.holds.lookup source = none) :
    s.handle now zoneAt (.update source u)
      = (s.rehome zoneAt source u, (s.rehome zoneAt source u).publishAll source [u]) := by
  simp only [handle, rehome_holds, h, publish_eq_publishAll]

theorem handle_update_of_held (h : s.holds.lookup source = some (started, buf))
    (hin : now - started < handoffHold) :
    s.handle now zoneAt (.update source u)
      = ({ s.rehome zoneAt source u with
            holds := s.holds.insert source (started, buf ++ [u]) }, []) := by
  simp only [handle, rehome_holds, h, hin, if_true]

theorem handle_update_of_expired (h : s.holds.lookup source = some (started, buf))
    (hout : ¬ now - started < handoffHold) :
    s.handle now zoneAt (.update source u)
      = ({ s.rehome zoneAt source u with holds := s.holds.erase source },
          (s.rehome zoneAt source u).publishAll source (buf ++ [u])) := by
  simp only [handle, rehome_holds, h, hout, if_false, publish_eq_publishAll, publishAll_append]

theorem handle_flushHold_of_none (h : s.holds.lookup source = none) :
    s.handle now zoneAt (.flushHold source) = (s, []) := by
  simp only [handle, h]

theorem handle_flushHold_of_some (h : s.holds.lookup source = some (started, buf)) :
    s.handle now zoneAt (.flushHold source)
      = ({ s with holds := s.holds.erase source }, s.publishAll source buf) := by
  simp only [handle, h]

theorem held_of_none (h : s.holds.lookup source = none) : held source s = [] := by
  simp [held, h]

theorem held_of_some (h : s.holds.lookup source = some (started, buf)) :
    held source s = buf := by
  simp [held, h]

theorem held_congr {s' : Forwarder F} (h : s'.holds.lookup source = s.holds.lookup source) :
    held source s' = held source s := by
  simp [held, h]

end Cases

/-- A message about one player publishes nothing of another and leaves its hold alone. -/
theorem handle_of_ne {source : UInt32} {msg : ForwardMsg F} (h : msg.source ≠ source)
    (now : Nat) (zoneAt : F → F → Option ZoneId) (s : Forwarder F) :
    (s.handle now zoneAt msg).1.holds.lookup source = s.holds.lookup source
      ∧ updatesOf source (s.handle now zoneAt msg).2 = [] := by
  have hne : source ≠ msg.source := fun e => h e.symm
  cases msg with
  | update source' u =>
      cases hl : s.holds.lookup source' with
      | none =>
          rw [handle_update_of_none hl]
          exact ⟨by rw [rehome_holds], updatesOf_publishAll_ne h _ _⟩
      | some hold =>
          by_cases hin : now - hold.1 < handoffHold
          · rw [handle_update_of_held hl hin]
            exact ⟨AList.lookup_insert_ne hne, rfl⟩
          · rw [handle_update_of_expired hl hin]
            exact ⟨AList.lookup_erase_ne hne, updatesOf_publishAll_ne h _ _⟩
  | beginHold source' => exact ⟨AList.lookup_insert_ne hne, rfl⟩
  | flushHold source' =>
      cases hl : s.holds.lookup source' with
      | none =>
          rw [handle_flushHold_of_none hl]
          exact ⟨rfl, rfl⟩
      | some hold =>
          rw [handle_flushHold_of_some hl]
          exact ⟨AList.lookup_erase_ne hne, updatesOf_publishAll_ne h _ _⟩
  | dropped source' => exact ⟨AList.lookup_erase_ne hne, rfl⟩

/-! ### One step -/

/-- What an event does to a player's updates: it publishes some of those that were held or
have just come in, in their order, and holds others; none is lost exactly when the event
keeps them. -/
structure Handles (source : UInt32) (op : Event F) (s s' : Forwarder F)
    (sent : List (Forwarded F)) : Prop where
  order : (updatesOf source sent ++ held source s').Sublist (held source s ++ arriving source op)
  exact_iff : (updatesOf source sent ++ held source s').length
    = (held source s ++ arriving source op).length ↔ Keeps source op s

theorem handles_of_frame {source : UInt32} {op : Event F} {s s' : Forwarder F}
    {sent : List (Forwarded F)} (hsent : updatesOf source sent = [])
    (hheld : held source s' = held source s) (harr : arriving source op = [])
    (hkeeps : Keeps source op s) : Handles source op s s' sent := by
  refine ⟨?_, ?_⟩
  · rw [hsent, hheld, harr, List.nil_append, List.append_nil]
  · rw [hsent, hheld, harr, List.nil_append, List.append_nil]
    exact ⟨fun _ => hkeeps, fun _ => rfl⟩

/-- An event that publishes all there is of the player, if the player is routed. -/
theorem handles_of_publishAll {source : UInt32} {op : Event F} {s t s' : Forwarder F}
    {due : List (ClientStateUpdate F)} (hdue : held source s ++ arriving source op = due)
    (hheld : held source s' = []) (hkeeps : Keeps source op s ↔ due = [] ∨ Routed source t) :
    Handles source op s s' (t.publishAll source due) := by
  have hsent := updatesOf_publishAll source t due
  by_cases hr : t.routes.zoneOf source = none
  · rw [if_pos hr] at hsent
    have hrouted : ¬ Routed source t := fun h => h hr
    refine ⟨?_, ?_⟩
    · rw [hsent, hheld]
      exact List.nil_sublist _
    · rw [hsent, hheld, hdue, hkeeps, or_iff_left hrouted, List.append_nil, List.length_nil,
        eq_comm, List.length_eq_zero_iff]
  · rw [if_neg hr] at hsent
    refine ⟨?_, ?_⟩
    · rw [hsent, hheld, hdue, List.append_nil]
    · rw [hsent, hheld, hdue, hkeeps, List.append_nil]
      exact ⟨fun _ => .inr hr, fun _ => rfl⟩

theorem update_handles (source : UInt32) (now : Nat) (zoneAt : F → F → Option ZoneId)
    (u : ClientStateUpdate F) (s : Forwarder F) :
    Handles source (.message now zoneAt (.update source u)) s
      (s.handle now zoneAt (.update source u)).1
      (s.handle now zoneAt (.update source u)).2 := by
  have harr : arriving source (.message now zoneAt (.update source u)) = [u] := if_pos rfl
  cases hl : s.holds.lookup source with
  | none =>
      have hheld := held_of_none hl
      rw [handle_update_of_none hl]
      refine handles_of_publishAll (by rw [hheld, harr]; rfl) ?_ ?_
      · exact (held_congr (by rw [rehome_holds])).trans hheld
      · simp [Keeps, hl]
  | some hold =>
      obtain ⟨started, buf⟩ := hold
      have hheld := held_of_some hl
      by_cases hin : now - started < handoffHold
      · rw [handle_update_of_held hl hin]
        have hheld' := held_of_some (s := { s.rehome zoneAt source u with
          holds := s.holds.insert source (started, buf ++ [u]) }) (AList.lookup_insert _)
        refine ⟨?_, ?_⟩
        · rw [hheld', hheld, harr]
          exact List.Sublist.refl _
        · rw [hheld', hheld, harr]
          exact ⟨fun _ _ => .inl ⟨_, hl, hin⟩, fun _ => rfl⟩
      · rw [handle_update_of_expired hl hin]
        refine handles_of_publishAll (by rw [hheld, harr]) ?_ ?_
        · exact held_of_none (AList.lookup_erase _ _)
        · simp [Keeps, hl, hin]

theorem beginHold_handles (source : UInt32) (now : Nat) (zoneAt : F → F → Option ZoneId)
    (s : Forwarder F) :
    Handles source (.message now zoneAt (.beginHold source)) s
      (s.handle now zoneAt (.beginHold source)).1 [] := by
  have hheld : held source (s.handle now zoneAt (.beginHold source)).1 = [] :=
    held_of_some (AList.lookup_insert _)
  refine ⟨?_, ?_⟩
  · rw [hheld]
    exact List.nil_sublist _
  · rw [hheld]
    show 0 = (held source s ++ []).length ↔ (source = source → held source s = [])
    rw [List.append_nil, eq_comm, List.length_eq_zero_iff]
    exact ⟨fun h _ => h, fun h => h rfl⟩

theorem flushHold_handles (source : UInt32) (now : Nat) (zoneAt : F → F → Option ZoneId)
    (s : Forwarder F) :
    Handles source (.message now zoneAt (.flushHold source)) s
      (s.handle now zoneAt (.flushHold source)).1
      (s.handle now zoneAt (.flushHold source)).2 := by
  cases hl : s.holds.lookup source with
  | none =>
      rw [handle_flushHold_of_none hl]
      exact handles_of_frame rfl rfl rfl fun _ => .inl (held_of_none hl)
  | some hold =>
      have hheld := held_of_some hl
      rw [handle_flushHold_of_some hl]
      refine handles_of_publishAll (by rw [hheld]; exact List.append_nil _) ?_ ?_
      · exact held_of_none (AList.lookup_erase _ _)
      · simp [Keeps, hheld]

theorem step_message {now : Nat} {zoneAt : F → F → Option ZoneId} {msg : ForwardMsg F}
    {s s' : Forwarder F} {sent : List (Forwarded F)}
    (h : step (.message now zoneAt msg) s = some (s', sent)) :
    s' = (s.handle now zoneAt msg).1 ∧ sent = (s.handle now zoneAt msg).2 := by
  have heq : s.handle now zoneAt msg = (s', sent) := Option.some.inj h
  rw [heq]
  exact ⟨rfl, rfl⟩

/-- **What one event does** to the updates of a player that stays. -/
theorem step_handles {source : UInt32} {op : Event F} {s s' : Forwarder F}
    {sent : List (Forwarded F)} (h : step op s = some (s', sent))
    (hstays : ∀ now zoneAt, op ≠ .message now zoneAt (.dropped source)) :
    Handles source op s s' sent := by
  cases op with
  | message now zoneAt msg =>
      obtain ⟨rfl, rfl⟩ := step_message h
      by_cases hsrc : msg.source = source
      · subst hsrc
        cases msg with
        | update source u => exact update_handles source now zoneAt u s
        | beginHold source => exact beginHold_handles source now zoneAt s
        | flushHold source => exact flushHold_handles source now zoneAt s
        | dropped source => exact absurd rfl (hstays now zoneAt)
      · obtain ⟨hholds, hsent⟩ := handle_of_ne hsrc now zoneAt s
        refine handles_of_frame hsent (held_congr hholds) ?_ ?_
        · cases msg with
          | update source' u => exact if_neg hsrc
          | _ => rfl
        · cases msg with
          | dropped source' => trivial
          | _ => exact fun e => absurd e hsrc
  | commitHandoff source' toZone =>
      obtain ⟨rfl, rfl⟩ := Prod.mk.inj (Option.some.inj h)
      exact handles_of_frame rfl rfl rfl trivial
  | unroute source' =>
      obtain ⟨rfl, rfl⟩ := Prod.mk.inj (Option.some.inj h)
      exact handles_of_frame rfl rfl rfl trivial

/-! ### Whole runs -/

/-- What was published, with what is held, is what was received, in its order and less what
was lost. -/
structure Accounted (source : UInt32) (past : List (Handled F)) (s : Forwarder F) : Prop where
  order : (published source past ++ held source s).Sublist (received source past)
  exact_iff : (published source past ++ held source s).length = (received source past).length
    ↔ Along (fun _ e => Keeps source e.op e.pre) past

theorem run_accounted {source : UInt32} {routes : RoutingTable} {past : List (Handled F)}
    {s : Forwarder F} (run : Run step { routes := routes } past s) (hstays : Stays source past) :
    Accounted source past s := by
  induction run with
  | nil =>
      have hheld : held source { routes := routes : Forwarder F } = [] := held_of_none rfl
      refine ⟨?_, ?_⟩
      · rw [hheld]
        exact List.Sublist.refl _
      · rw [hheld]
        exact ⟨fun _ => trivial, fun _ => rfl⟩
  | @snoc past s s' op sent run h ih =>
      have hold := ih fun e he => hstays e (List.mem_cons_of_mem _ he)
      have hnew := step_handles h (hstays _ List.mem_cons_self)
      have hlen := hold.order.length_le
      have hlen' := hnew.order.length_le
      have hexact := hold.exact_iff
      have hexact' := hnew.exact_iff
      simp only [List.length_append] at hlen hlen' hexact hexact'
      refine ⟨?_, ?_⟩
      · rw [published_cons, received_cons, List.append_assoc]
        refine List.Sublist.trans (List.Sublist.append_left hnew.order _) ?_
        rw [← List.append_assoc]
        exact List.Sublist.append_right hold.order _
      · rw [published_cons, received_cons]
        simp only [List.length_append]
        constructor
        · intro heq
          exact ⟨hexact'.mp (by omega), hexact.mp (by omega)⟩
        · rintro ⟨hkeeps, hpast⟩
          have h1 := hexact'.mpr hkeeps
          have h2 := hexact.mpr hpast
          omega

/-- Only the begin of a hold makes a player held. -/
theorem step_unheld {source : UInt32} {op : Event F} {s s' : Forwarder F}
    {sent : List (Forwarded F)} (h : step op s = some (s', sent))
    (hnone : s.holds.lookup source = none)
    (hop : ∀ now zoneAt, op ≠ .message now zoneAt (.beginHold source)) :
    s'.holds.lookup source = none := by
  cases op with
  | message now zoneAt msg =>
      obtain ⟨rfl, rfl⟩ := step_message h
      by_cases hsrc : msg.source = source
      · cases msg with
        | update source' u =>
            obtain rfl : source' = source := hsrc
            rw [handle_update_of_none hnone, rehome_holds]
            exact hnone
        | beginHold source' =>
            obtain rfl : source' = source := hsrc
            exact absurd rfl (hop now zoneAt)
        | flushHold source' =>
            obtain rfl : source' = source := hsrc
            rw [handle_flushHold_of_none hnone]
            exact hnone
        | dropped source' =>
            obtain rfl : source' = source := hsrc
            exact AList.lookup_erase _ _
      · rw [(handle_of_ne hsrc now zoneAt s).1]
        exact hnone
  | commitHandoff source' toZone =>
      obtain ⟨rfl, rfl⟩ := Prod.mk.inj (Option.some.inj h)
      exact hnone
  | unroute source' =>
      obtain ⟨rfl, rfl⟩ := Prod.mk.inj (Option.some.inj h)
      exact hnone

/-- After its last flush nothing of the player is held. -/
theorem unheld_of_flushed {source : UInt32} {routes : RoutingTable} {past : List (Handled F)}
    {s : Forwarder F} (run : Run step { routes := routes } past s) (hflushed : Flushed source past) :
    s.holds.lookup source = none := by
  induction run with
  | nil => rfl
  | @snoc past s s' op sent run h ih =>
      by_cases hflush : ∃ now zoneAt, op = .message now zoneAt (.flushHold source)
      · obtain ⟨now, zoneAt, rfl⟩ := hflush
        obtain ⟨rfl, rfl⟩ := step_message h
        cases hl : s.holds.lookup source with
        | none =>
            rw [handle_flushHold_of_none hl]
            exact hl
        | some hold =>
            rw [handle_flushHold_of_some hl]
            exact AList.lookup_erase _ _
      · have hpast : Flushed source past ∧ ∀ now zoneAt, op ≠ .message now zoneAt (.beginHold source)
            := by
          cases op with
          | message now zoneAt msg =>
              cases msg with
              | beginHold source' =>
                  refine ⟨hflushed.2, ?_⟩
                  rintro now' zoneAt' ⟨⟩
                  exact hflushed.1 rfl
              | flushHold source' =>
                  refine ⟨?_, nofun⟩
                  rcases hflushed with rfl | hpast
                  · exact absurd ⟨now, zoneAt, rfl⟩ hflush
                  · exact hpast
              | update source' u => exact ⟨hflushed, nofun⟩
              | dropped source' => exact ⟨hflushed, nofun⟩
          | commitHandoff source' toZone => exact ⟨hflushed, nofun⟩
          | unroute source' => exact ⟨hflushed, nofun⟩
        exact step_unheld h (ih hpast.1) hpast.2

/-- **Forwarding loses nothing exactly when no hold begins over held updates** and nothing is
published for a player without a route.  Then every update received is published once, in the
order received, as soon as the player's last hold has been flushed. -/
theorem published_eq_received_iff {routes : RoutingTable} {past : List (Handled F)}
    {s : Forwarder F} (run : Run step { routes := routes } past s) (source : UInt32)
    (hstays : Stays source past) (hflushed : Flushed source past) :
    published source past = received source past
      ↔ Along (fun _ e => Keeps source e.op e.pre) past := by
  have haccount := run_accounted run hstays
  have hheld : held source s = [] := held_of_none (unheld_of_flushed run hflushed)
  have horder := haccount.order
  have hexact := haccount.exact_iff
  rw [hheld, List.append_nil] at horder hexact
  rw [← hexact]
  exact ⟨fun h => by rw [h], horder.eq_of_length⟩

/-! ### A handoff tried twice -/

/-- A position report of a player at the origin. -/
def report (health : Nat) : ClientStateUpdate Nat where
  entityId := none
  entityType := .player
  modelHash := 1
  coords := ⟨0, 0, 0⟩
  heading := 0
  velocity := ⟨0, 0, 0⟩
  health := health
  armour := 0
  extra := none

/-- A handoff of player 1 to zone b, with an update before its hold and two that are held. -/
def onceHeld : List (Event Nat) :=
  [.message 0 (fun _ _ => none) (.update 1 (report 100)),
    .message 10 (fun _ _ => none) (.beginHold 1),
    .message 20 (fun _ _ => none) (.update 1 (report 90)),
    .commitHandoff 1 "b",
    .message 30 (fun _ _ => none) (.update 1 (report 80)),
    .message 60 (fun _ _ => none) (.flushHold 1)]

/-- A handoff rolled back at once: its second commit begins the hold again. -/
def twiceHeld : List (Event Nat) :=
  [.message 0 (fun _ _ => none) (.beginHold 1),
    .message 10 (fun _ _ => none) (.update 1 (report 100)),
    .message 20 (fun _ _ => none) (.beginHold 1),
    .message 60 (fun _ _ => none) (.flushHold 1),
    .message 80 (fun _ _ => none) (.flushHold 1)]

/-- Player 1 is routed to zone a. -/
def routedToA : RoutingTable := RoutingTable.assign 1 "a" ∅

/-- The updates of one hold are published behind the one before it. -/
theorem published_in_order :
    ∃ past s, Run step { routes := routedToA } past s
      ∧ received 1 past = [report 100, report 90, report 80]
      ∧ published 1 past = received 1 past := by
  have run := run_of_ops step { routes := routedToA } onceHeld rfl
  refine ⟨_, _, run, rfl, (published_eq_received_iff run 1 ?_ ?_).mpr ?_⟩
  · simp [Stays]
  · exact .inl rfl
  · exact ⟨fun _ => .inr nofun, fun _ => .inl ⟨_, rfl, by decide⟩, trivial,
      fun _ => .inl ⟨_, rfl, by decide⟩, fun _ => rfl, fun _ => .inr nofun, trivial⟩

/-- The update held by the first of two holds is never published. -/
theorem second_hold_loses_update :
    ¬ ∀ (routes : RoutingTable) (past : List (Handled Nat)) (s : Forwarder Nat) (source : UInt32),
      Run step { routes := routes } past s → Stays source past → Flushed source past →
        published source past = received source past := by
  intro h
  have run := run_of_ops step { routes := routedToA } twiceHeld rfl
  have hlost : [] = [report 100] := h _ _ _ 1 run (by simp [Stays]) (.inl rfl)
  cases hlost

end Baston.Gateway.Forwarder
