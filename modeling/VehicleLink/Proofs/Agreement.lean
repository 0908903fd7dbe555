import VehicleLink.Proofs.Coupled
import VehicleLink.Worker.Scripted

/-!
# Agreement of a transport and its worker

When nothing is under way between them, a transport that has a peer is connected and its worker
holds a link to that peer. The other direction fails in one case: a report that a link came up
finds the transport disconnected, and the worker keeps the link (`agreement_iff`). It can happen
because reports do not say which attempt they are about, so the report that an attempt was given up
can be taken for the failure of the next one (`link_left_behind`).
-/

namespace VehicleLink.Partners

variable {α σ : Type} {p : Partners α σ}

/-! ## Nothing under way -/

/-- With nothing under way the worker holds a link if and only if the last report on it that was
handled was that it came up. -/
theorem Coupled.linked_iff (h : Coupled p) (hquiet : p.Quiet) :
    p.worker.current.isSome = true ↔ ∃ c, p.lastHandled = some (c, .linkUp) := by
  have hnolast : lastLink p.reports = none := by rw [hquiet.2]; rfl
  rw [h.current, hnolast, Option.none_or, Option.map_eq_some_iff]
  constructor
  · rintro ⟨⟨c, e⟩, heq, rfl⟩
    exact ⟨c, heq⟩
  · rintro ⟨c, heq⟩
    exact ⟨_, heq, rfl⟩

theorem Coupled.linked_of_connected (h : Coupled p) (hquiet : p.Quiet)
    (hconn : p.endpoint.transport.connection.isConnected = true) :
    p.worker.current.isSome = true := by
  obtain ⟨⟨c, e⟩, heq, hk⟩ := h.connected.1 hconn
  rw [keeps_linkUp hk] at heq
  exact (h.linked_iff hquiet).2 ⟨c, heq⟩

/-- With nothing under way no attempt is. -/
theorem Coupled.connected_of_peer (h : Coupled p) (hquiet : p.Quiet) {a : Address}
    (ha : p.endpoint.transport.connection.peer? = some a) :
    p.endpoint.transport.connection.isConnected = true := by
  cases hconn : p.endpoint.transport.connection with
  | disconnected => rw [hconn] at ha; cases ha
  | connected b r t => rfl
  | connecting b t =>
    rcases h.attempted (by rw [hconn]; rfl) with ⟨k, hk⟩ | hne
    · rw [hquiet.1] at hk
      cases hk
    · rw [hquiet.2] at hne
      exact absurd rfl hne

theorem Coupled.connected_of_linked (h : Coupled p) (hquiet : p.Quiet)
    (hlinked : p.worker.current.isSome = true)
    (hkept : p.lastHandled ≠ some (.disconnected, .linkUp)) :
    p.endpoint.transport.connection.isConnected = true := by
  obtain ⟨c, hc⟩ := (h.linked_iff hquiet).1 hlinked
  rcases keeps_cases c with rfl | ⟨a, rfl⟩ | hk
  · exact absurd hc hkept
  · rcases h.unwanted a hc with hnone | hmem | hne
    · rw [hnone] at hlinked
      cases hlinked
    · rw [hquiet.1] at hmem
      cases hmem
    · rw [hquiet.2] at hne
      exact absurd rfl hne
  · exact h.connected.2 ⟨_, hc, hk⟩

theorem Coupled.current_of_peer (h : Coupled p) (hquiet : p.Quiet) {a : Address}
    (ha : p.endpoint.transport.connection.peer? = some a) :
    ∃ q, p.worker.current = some q ∧ q.address = a := by
  have hconn := h.connected_of_peer hquiet ha
  obtain ⟨q, hq⟩ := Option.isSome_iff_exists.1 (h.linked_of_connected hquiet hconn)
  have hlast := h.peer a ha
  rw [hquiet.1, List.append_nil, h.dialed q hq] at hlast
  exact ⟨q, hq, Option.some.inj hlast⟩

/-! ## Agreement -/

variable [DeviceStore σ] [Adapter α]

/-- Two partners between which nothing is under way. A transport with a peer is connected, and the
worker holds a link to that peer. They agree on whether there is a link if and only if the last
report on it was not that of a link that came up and found the transport disconnected. -/
theorem agreement_iff {s : LinkSettings} {target : Option String} {n : Nat} {store : σ}
    {w : Endpoint CallQueue σ}
    (hw : Endpoint.create s target ({ capacity := n } : CallQueue) store = .ok w)
    (adapter : α) (limit : Nanos) (ms : List (Move α σ))
    (hroom : Roomy ms (start w adapter limit)) (hquiet : ((start w adapter limit).moves ms).Quiet) :
    let p := (start w adapter limit).moves ms
    (∀ a, p.endpoint.transport.connection.peer? = some a →
      p.endpoint.transport.connection.isConnected = true ∧
        ∃ q, p.worker.current = some q ∧ q.address = a) ∧
    ((p.endpoint.transport.connection.isConnected = true ↔ p.worker.current.isSome = true) ↔
      p.lastHandled ≠ some (.disconnected, .linkUp)) := by
  intro p
  have h : Coupled p := coupled_moves (coupled_start hw adapter limit) hroom
  refine ⟨fun a ha => ⟨h.connected_of_peer hquiet ha, h.current_of_peer hquiet ha⟩, ?_, ?_⟩
  · intro hagree hstray
    have hlinked := (h.linked_iff hquiet).2 ⟨_, hstray⟩
    obtain ⟨⟨c, e⟩, heq, hk⟩ := h.connected.1 (hagree.2 hlinked)
    rw [hstray] at heq
    cases heq
    cases hk
  · intro hkept
    exact ⟨h.linked_of_connected hquiet, fun hlinked => h.connected_of_linked hquiet hlinked hkept⟩

/-- An adapter with two peripherals. -/
def twoPeripherals : ScriptedAdapter :=
  { peripherals :=
      [{ id := "a", address := ⟨0, 0, 0, 0, 0, 10⟩
         characteristics := [(Gatt.service, Gatt.characteristic .notify)] },
       { id := "b", address := ⟨0, 0, 0, 0, 0, 11⟩ }] }

/-- A link that was asked for and is held on both sides. -/
theorem agreement_on_link :
    ∃ (w : Endpoint CallQueue Store.Memory) (ms : List (Move ScriptedAdapter Store.Memory)),
      Endpoint.create {} none ({ capacity := 4 } : CallQueue) {} = .ok w ∧
      Roomy ms (start w twoPeripherals 0) ∧ ((start w twoPeripherals 0).moves ms).Quiet ∧
      ((start w twoPeripherals 0).moves ms).endpoint.transport.connection.peer? =
        some ⟨0, 0, 0, 0, 0, 10⟩ ∧
      ∃ q, ((start w twoPeripherals 0).moves ms).worker.current = some q ∧
        q.address = ⟨0, 0, 0, 0, 0, 10⟩ := by
  let ms : List (Move ScriptedAdapter Store.Memory) :=
    [.consumer .start, .consumer (.connect (some ⟨0, 0, 0, 0, 0, 10⟩)), .obey, .deliver, .obey,
      .deliver, .obey]
  have hw : Endpoint.create {} none ({ capacity := 4 } : CallQueue) ({} : Store.Memory) = .ok _ :=
    rfl
  exact ⟨_, ms, hw, by decide, by decide, by decide,
    ((agreement_iff hw twoPeripherals 0 ms (by decide) (by decide)).1 _ (by decide)).2⟩

/-- An attempt at one peripheral is given up, and an attempt at another one is under way when the
first report arrives that the first link is down. The transport gives the second attempt up, and
the worker holds a link that the transport does not want. -/
theorem link_left_behind :
    ∃ (w : Endpoint CallQueue Store.Memory) (ms : List (Move ScriptedAdapter Store.Memory)),
      Endpoint.create {} none ({ capacity := 4 } : CallQueue) {} = .ok w ∧
      Roomy ms (start w twoPeripherals 0) ∧ ((start w twoPeripherals 0).moves ms).Quiet ∧
      ((start w twoPeripherals 0).moves ms).endpoint.transport.connection.isConnected = false ∧
      ((start w twoPeripherals 0).moves ms).worker.current =
        some ⟨"b", ⟨0, 0, 0, 0, 0, 11⟩⟩ := by
  let ms : List (Move ScriptedAdapter Store.Memory) :=
    [.consumer .start, .consumer (.connect (some ⟨0, 0, 0, 0, 0, 10⟩)), .consumer .disconnect,
      .obey, .obey, .deliver, .consumer (.connect (some ⟨0, 0, 0, 0, 0, 11⟩)), .deliver, .obey,
      .obey, .deliver]
  have hw : Endpoint.create {} none ({ capacity := 4 } : CallQueue) ({} : Store.Memory) = .ok _ :=
    rfl
  exact ⟨_, ms, hw, by decide, by decide, by decide, by decide⟩

end VehicleLink.Partners
