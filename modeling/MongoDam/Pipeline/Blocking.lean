import MongoDam.Observer.Batch
import MongoDam.Pipeline.Delivery
import MongoDam.Spool.Faults

/-!
# What blocks a delivery pass

Both passes take the pending items in the order of their ids and stop at the first
item of which no request can be made. With a destination that accepts every request,
the items before it are delivered and acknowledged, and everything behind it stays
in the spool, in this pass and in every later one.
-/

namespace MongoDam.Pipeline

open Lib Schema Spool FileSystem Program

/-! ### An accepting destination -/

/-- The disk of a spool, and the requests that the destination has received. -/
structure World where
  disk : Disk
  received : List Request

/-- File operations do not fail, and the destination accepts every request it receives. A
request that the client cannot build never reaches it. -/
def Accepting (builds : Request → Bool) : Meaning DeliveryOp DeliveryOp.Result World
  | .file op, w, result, w' => Exec op w.disk result w'.disk ∧ w'.received = w.received
  | .send request, w, result, w' =>
    if builds request then
      w' = { w with received := w.received ++ [request] } ∧
        ∃ status, isSuccess status = true ∧ result = .ok status
    else w' = w ∧ ∃ error, result = .error error

/-- Perform an operation so that it does not fail. -/
def acceptingPerform (builds : Request → Bool) :
    (op : DeliveryOp) → World → op.Result × World
  | .file op, w => ((perform op w.disk).1, { w with disk := (perform op w.disk).2 })
  | .send request, w =>
    if builds request then (.ok 200, { w with received := w.received ++ [request] })
    else (.error "builder error", w)

theorem accepting_perform (builds : Request → Bool) (op : DeliveryOp) (w : World) :
    Accepting builds op w (acceptingPerform builds op w).1 (acceptingPerform builds op w).2 := by
  cases op with
  | file op => exact ⟨exec_perform op w.disk, rfl⟩
  | send request =>
    by_cases hbuilds : builds request = true
    · simp [Accepting, acceptingPerform, hbuilds, isSuccess]
    · simp [Accepting, acceptingPerform, hbuilds]

/-! ### Running deliveries -/

section Rules

variable {builds : Request → Bool} {w : World} {Q : Except DeliveryError β → World → Prop}

/-- Every end of the delivery satisfies `Q`. -/
def Delivery.Ensures (builds : Request → Bool) (Q : Except DeliveryError α → World → Prop)
    (delivery : Delivery α) (w : World) : Prop :=
  Always (Accepting builds) (fun _ => True) Q delivery w

theorem Delivery.Ensures.mono {Q R : Except DeliveryError α → World → Prop}
    {delivery : Delivery α} (h : delivery.Ensures builds Q w)
    (hQ : ∀ result s, Q result s → R result s) : delivery.Ensures builds R w :=
  Always.mono (fun _ => id) hQ h

theorem Delivery.ensures_pure {value : β} (h : Q (.ok value) w) :
    (pure value : Delivery β).Ensures builds Q w := h

theorem Delivery.ensures_fail {error : DeliveryError} (h : Q (.error error) w) :
    (Delivery.fail error : Delivery β).Ensures builds Q w := h

/-- Go on where the first delivery ended. -/
theorem Delivery.ensures_bind {delivery : Delivery α} {f : α → Delivery β}
    (h : delivery.Ensures builds (fun result s => match result with
      | .ok value => (f value).Ensures builds Q s
      | .error error => Q (.error error) s) w) : (delivery >>= f).Ensures builds Q w := by
  refine always_bind (h.mono fun result s hresult => ?_)
  cases result with
  | ok value => exact hresult
  | error error => exact hresult

/-- A spool call changes the disk only. -/
theorem Delivery.ensures_call {action : Action β}
    (h : action.Ensures Exec (fun _ => True)
      (fun result disk => Q (result.mapError .spool) { w with disk }) w.disk) :
    (call action).Ensures builds Q w := by
  let part : Part Disk World :=
    { get := World.disk, set := fun w disk => { w with disk }, get_set := fun _ _ => rfl
      set_set := fun _ _ _ => rfl, set_get := fun _ => rfl }
  refine always_bind (always_hoist part (fun op t result t' hexec => ?_) h)
  refine ⟨hexec.1, ?_⟩
  have hreceived : t'.received = t.received := hexec.2
  change t' = { t with disk := t'.disk }
  rw [← hreceived]

theorem Delivery.ensures_send_bind {context : String} {request : Request} {f : ℕ → Delivery β}
    (haccepted : builds request = true → ∀ status, isSuccess status = true →
      (f status).Ensures builds Q { w with received := w.received ++ [request] })
    (hunbuilt : builds request = false → ∀ error, Q (.error (.failed context error)) w) :
    (send context request >>= f).Ensures builds Q w := by
  refine fun result w' hexec => ⟨trivial, ?_⟩
  change if builds request then _ else _ at hexec
  split at hexec
  · rename_i hbuilds
    obtain ⟨rfl, status, hstatus, rfl⟩ := hexec
    exact haccepted hbuilds status hstatus
  · rename_i hbuilds
    obtain ⟨rfl, error, rfl⟩ := hexec
    exact hunbuilt (by simpa using hbuilds) error

end Rules

/-! ### Spool calls -/

section Calls

variable {disk : Disk}

theorem pending_ensures :
    pending.Ensures Exec (fun _ => True)
      (fun result disk' => result = .ok (itemsAt disk) ∧ disk' = disk) disk := by
  refine ensures_io_bind fun result disk' hexec => ⟨trivial, ?_⟩
  obtain ⟨rfl, names, hperm, rfl⟩ := hexec
  exact ensures_pure ⟨by rw [itemsAt_of_perm hperm], rfl⟩

theorem read_ensures {item : PendingItem} {body : Bytes}
    (hheld : held disk .root item.id = some body) :
    (Spool.read item).Ensures Exec (fun _ => True)
      (fun result disk' => result = .ok body ∧ disk' = disk) disk := by
  refine ensures_io fun result disk' hexec => ⟨trivial, ?_⟩
  obtain ⟨rfl, rfl⟩ := hexec
  have hdata : disk'.dataAt item.path = some body := hheld
  rw [hdata]
  exact ⟨rfl, rfl⟩

theorem acknowledge_held (item : PendingItem) :
    (acknowledge item).Ensures Exec (fun _ => True)
      (fun result disk' => result = .ok () ∧ held disk' = (held disk).acknowledge item.id)
      disk := by
  refine ensures_attempt_bind fun result removed hexec => ⟨trivial, ?_⟩
  change (result, removed) = disk.removeFile item.path at hexec
  unfold removeFile at hexec
  split at hexec
  · rename_i hget
    cases hexec
    have habsent : held disk .root item.id = none := by
      unfold held holdings
      rw [show disk.entries.get? (.root, .item item.id) = none from hget, Option.map_none]
    exact ensures_pure ⟨rfl, (Holdings.set_of_eq habsent).symm⟩
  · cases hexec
    refine ensures_io fun result synced hexec => ⟨trivial, ?_⟩
    obtain ⟨rfl, rfl⟩ := hexec
    exact ⟨rfl, holdings_erase_item ..⟩

end Calls

/-! ### The passes -/

/-- The request the observer makes of a body. -/
def observerRequest (serde : Serde) (outpostUrl : String) (internalToken : Option String)
    (body : Bytes) : Option Request :=
  (serde.decode (DamBatch.codec serde) body).map fun batch =>
    .post outpostUrl internalToken batch.batchId body

/-- The request Outpost makes of a body. -/
def outpostRequest (encoders : Encoders) (destination : DestinationConfig) (body : Bytes) :
    Option Request :=
  (encoders.serde.decode (DamBatch.codec encoders.serde) body).bind fun batch =>
    match destination with
    | .http destination =>
      some (.post destination.endpoint (some destination.bearerToken) batch.batchId body)
    | .s3 destination =>
      (encodeS3Ndjson encoders batch).map
        (.putObject destination.bucket (s3ObjectKey encoders destination batch))

/-- One of the two passes. -/
inductive Pass where
  | observer (outpostUrl : String) (internalToken : Option String)
  | outpost (destination : DestinationConfig)

variable (encoders : Encoders)

def Pass.program : Pass → Delivery Unit
  | observer outpostUrl internalToken =>
    deliverObserverSpool encoders.serde outpostUrl internalToken
  | outpost destination => deliverPending encoders destination destination.client

def Pass.deliverItem : Pass → PendingItem → Delivery Unit
  | observer outpostUrl internalToken =>
    deliverObserverItem encoders.serde outpostUrl internalToken
  | outpost destination => deliverPendingItem encoders destination destination.client

/-- The request a pass makes of a body. -/
def Pass.request : Pass → Bytes → Option Request
  | observer outpostUrl internalToken => observerRequest encoders.serde outpostUrl internalToken
  | outpost destination => outpostRequest encoders destination

/-- The request that reaches the destination. -/
def Pass.sent (builds : Request → Bool) (pass : Pass) (body : Bytes) : Option Request :=
  (pass.request encoders body).filter builds

variable {encoders}

theorem Pass.program_eq (pass : Pass) : pass.program encoders = (do
    let items ← call pending
    deliverEach (pass.deliverItem encoders) items) := by
  cases pass <;> rfl

/-! ### One item -/

variable {builds : Request → Bool}

/-- Sending the request of an item, acknowledging it, or stopping. -/
def Treated (sent : Option Request) (item : PendingItem) (w : World)
    (result : Except DeliveryError Unit) (w' : World) : Prop :=
  match sent with
  | some request => result = .ok () ∧ w'.received = w.received ++ [request] ∧
      held w'.disk = (held w.disk).acknowledge item.id
  | none => (∃ error, result = .error error) ∧ w' = w

/-- After an accepted request the item is acknowledged. -/
private theorem accepted_treated {request : Request} {item : PendingItem} {w : World} :
    (call (acknowledge item)).Ensures builds (Treated (some request) item w)
      { w with received := w.received ++ [request] } := by
  refine Delivery.ensures_call ((acknowledge_held item).mono (fun _ => id) ?_)
  rintro result disk ⟨rfl, hheld⟩
  exact ⟨rfl, rfl, hheld⟩

private theorem ensures_read_bind {item : PendingItem} {body : Bytes} {f : Bytes → Delivery Unit}
    {Q : Except DeliveryError Unit → World → Prop} {w : World}
    (hheld : held w.disk .root item.id = some body) (h : (f body).Ensures builds Q w) :
    (call (Spool.read item) >>= f).Ensures builds Q w := by
  refine Delivery.ensures_bind (Delivery.ensures_call ((read_ensures hheld).mono (fun _ => id) ?_))
  rintro result disk ⟨rfl, rfl⟩
  exact h

private theorem deliverObserverItem_ensures {outpostUrl : String} {internalToken : Option String}
    {item : PendingItem} {body : Bytes} {w : World}
    (hheld : held w.disk .root item.id = some body) :
    (deliverObserverItem encoders.serde outpostUrl internalToken item).Ensures builds
      (Treated ((observerRequest encoders.serde outpostUrl internalToken body).filter builds)
        item w) w := by
  refine ensures_read_bind hheld ?_
  unfold observerRequest
  cases encoders.serde.decode (DamBatch.codec encoders.serde) body with
  | none => exact Delivery.ensures_fail ⟨⟨_, rfl⟩, rfl⟩
  | some batch =>
    rw [Option.map_some, Option.filter_some]
    refine Delivery.ensures_send_bind (fun hbuilds status hstatus => ?_) fun hbuilds error => ?_
    · rw [if_pos (Or.inl hstatus), if_pos hbuilds]
      exact accepted_treated
    · rw [hbuilds]
      exact ⟨⟨_, rfl⟩, rfl⟩

private theorem deliverPendingItem_ensures {destination : DestinationConfig} {item : PendingItem}
    {body : Bytes} {w : World} (hheld : held w.disk .root item.id = some body) :
    (deliverPendingItem encoders destination destination.client item).Ensures builds
      (Treated ((outpostRequest encoders destination body).filter builds) item w) w := by
  refine ensures_read_bind hheld ?_
  unfold outpostRequest
  cases encoders.serde.decode (DamBatch.codec encoders.serde) body with
  | none => exact Delivery.ensures_fail ⟨⟨_, rfl⟩, rfl⟩
  | some batch =>
    rw [Option.bind_some]
    cases destination with
    | http destination =>
      rw [Option.filter_some]
      refine Delivery.ensures_bind (Delivery.ensures_send_bind (fun hbuilds status hstatus => ?_)
        fun hbuilds error => ?_)
      · rw [if_pos (Or.inl hstatus), if_pos hbuilds]
        exact Delivery.ensures_pure accepted_treated
      · rw [hbuilds]
        exact ⟨⟨_, rfl⟩, rfl⟩
    | s3 destination =>
      refine Delivery.ensures_bind ?_
      unfold deliverS3Batch
      dsimp only
      cases encodeS3Ndjson encoders batch with
      | none => exact Delivery.ensures_fail ⟨⟨_, rfl⟩, rfl⟩
      | some encoded =>
        rw [Option.map_some, Option.filter_some]
        refine Delivery.ensures_send_bind (fun hbuilds status hstatus => ?_)
          fun hbuilds error => ?_
        · rw [if_pos hbuilds]
          exact Delivery.ensures_pure accepted_treated
        · rw [hbuilds]
          exact ⟨⟨_, rfl⟩, rfl⟩

/-- A pass sends the request of an item and acknowledges it, or it stops. -/
theorem Pass.deliverItem_ensures (pass : Pass) {item : PendingItem} {body : Bytes} {w : World}
    (hheld : held w.disk .root item.id = some body) :
    (pass.deliverItem encoders item).Ensures builds
      (Treated (pass.sent encoders builds body) item w) w := by
  cases pass with
  | observer outpostUrl internalToken => exact deliverObserverItem_ensures hheld
  | outpost destination => exact deliverPendingItem_ensures hheld

/-! ### All items -/

/-- The items have been delivered and acknowledged, and nothing else has happened. -/
structure Emptied (sent : Bytes → Option Request) (bodyOf : PendingItem → Bytes)
    (items : List PendingItem) (w w' : World) : Prop where
  received : w'.received = w.received ++ items.filterMap fun item => sent (bodyOf item)
  root : ∀ id, held w'.disk .root id =
    if id ∈ items.map PendingItem.id then none else held w.disk .root id

/-- The items before the first one of which no request can be made. -/
def passed (sent : Bytes → Option Request) (bodyOf : PendingItem → Bytes)
    (items : List PendingItem) : List PendingItem :=
  items.takeWhile fun item => (sent (bodyOf item)).isSome

private theorem Emptied.nil {sent : Bytes → Option Request} {bodyOf : PendingItem → Bytes}
    {w : World} : Emptied sent bodyOf [] w w :=
  ⟨(List.append_nil _).symm, fun _ => rfl⟩

private theorem Emptied.cons {sent : Bytes → Option Request} {bodyOf : PendingItem → Bytes}
    {item : PendingItem} {rest : List PendingItem} {request : Request} {w w₁ w' : World}
    (hsent : sent (bodyOf item) = some request) (hreceived : w₁.received = w.received ++ [request])
    (hheld : held w₁.disk = (held w.disk).acknowledge item.id)
    (h : Emptied sent bodyOf rest w₁ w') : Emptied sent bodyOf (item :: rest) w w' := by
  refine ⟨?_, fun id => ?_⟩
  · simp [h.received, hreceived, hsent]
  · rw [h.root id, hheld]
    by_cases hid : id = item.id
    · simp [hid, Holdings.acknowledge]
    · rw [Holdings.acknowledge, Holdings.set_of_ne _ _ hid]
      simp [hid]

/-- The loop delivers the items up to the first one of which no request can be made. -/
theorem deliverEach_ensures (pass : Pass) (bodyOf : PendingItem → Bytes)
    {items : List PendingItem} (hnodup : (items.map PendingItem.id).Nodup) {w : World}
    (hheld : ∀ item ∈ items, held w.disk .root item.id = some (bodyOf item)) :
    (deliverEach (pass.deliverItem encoders) items).Ensures builds
      (fun _ w' => Emptied (pass.sent encoders builds) bodyOf
        (passed (pass.sent encoders builds) bodyOf items) w w') w := by
  induction items generalizing w with
  | nil => exact Delivery.ensures_pure .nil
  | cons item rest ih =>
    obtain ⟨hfresh, hrest⟩ := List.nodup_cons.mp hnodup
    have hfirst := hheld item (List.mem_cons_self ..)
    refine Delivery.ensures_bind ((pass.deliverItem_ensures hfirst).mono fun result w₁ h => ?_)
    unfold Treated at h
    cases hsent : pass.sent encoders builds (bodyOf item) with
    | none =>
      rw [hsent] at h
      obtain ⟨⟨error, rfl⟩, rfl⟩ := h
      have hpassed : passed (pass.sent encoders builds) bodyOf (item :: rest) = [] := by
        simp [passed, hsent]
      rw [hpassed]
      exact .nil
    | some request =>
      rw [hsent] at h
      obtain ⟨rfl, hreceived, hacknowledged⟩ := h
      have hpassed : passed (pass.sent encoders builds) bodyOf (item :: rest) =
          item :: passed (pass.sent encoders builds) bodyOf rest := by
        simp [passed, hsent]
      rw [hpassed]
      refine (ih hrest fun other hother => ?_).mono fun _ w' => .cons hsent hreceived hacknowledged
      have hne : other.id ≠ item.id := fun heq => hfresh (heq ▸ List.mem_map_of_mem hother)
      rw [hacknowledged, Holdings.acknowledge, Holdings.set_of_ne _ _ hne]
      exact hheld other (List.mem_cons_of_mem _ hother)

/-! ### The whole pass -/

/-- The body of an item. -/
def bodyOn (disk : Disk) (item : PendingItem) : Bytes := (held disk .root item.id).getD []

/-- A pass delivers the pending items up to the first one of which no request can be made. -/
theorem Pass.ensures (pass : Pass) (disk : Disk) :
    (pass.program encoders).Ensures builds
      (fun _ w' => Emptied (pass.sent encoders builds) (bodyOn disk)
        (passed (pass.sent encoders builds) (bodyOn disk) (itemsAt disk)) ⟨disk, []⟩ w')
      ⟨disk, []⟩ := by
  rw [pass.program_eq]
  refine Delivery.ensures_bind (Delivery.ensures_call (pending_ensures.mono (fun _ => id) ?_))
  rintro result disk' ⟨rfl, rfl⟩
  refine deliverEach_ensures pass _ ?_ fun item hitem => ?_
  · exact List.pairwise_map.mpr ((itemsAt_sorted disk').imp fun hlt => ne_of_lt hlt)
  · obtain ⟨-, hsome⟩ := exists_mem_itemsAt.mp ⟨item, hitem, rfl⟩
    obtain ⟨body, hbody⟩ := Option.isSome_iff_exists.mp hsome
    rw [bodyOn, hbody, Option.getD_some]

/-- In a sorted list, an element is taken when the test holds up to it. -/
private theorem mem_takeWhile_of_sorted {κ : Type} [LinearOrder κ] {key : α → κ} {p : α → Bool}
    {items : List α} (hsorted : items.Pairwise fun left right => key left < key right)
    {item : α} (hitem : item ∈ items) :
    item ∈ items.takeWhile p ↔ ∀ other ∈ items, key other ≤ key item → p other = true := by
  induction items with
  | nil => cases hitem
  | cons first rest ih =>
    obtain ⟨hfirst, hrest⟩ := List.pairwise_cons.mp hsorted
    have hle : key first ≤ key item := by
      rcases List.mem_cons.mp hitem with rfl | hmem
      · exact le_refl _
      · exact (hfirst item hmem).le
    by_cases hp : p first = true
    · rw [List.takeWhile_cons_of_pos hp]
      rcases List.mem_cons.mp hitem with rfl | hmem
      · refine ⟨fun _ other hother hother' => ?_, fun _ => List.mem_cons_self ..⟩
        rcases List.mem_cons.mp hother with rfl | hmem
        · exact hp
        · exact absurd (hfirst other hmem) (not_lt_of_ge hother')
      · have hne : item ≠ first := fun heq => lt_irrefl _ (heq ▸ hfirst item hmem)
        rw [List.mem_cons, or_iff_right hne, ih hrest hmem, List.forall_mem_cons]
        exact ⟨fun h => ⟨fun _ => hp, h⟩, fun h => h.2⟩
    · rw [List.takeWhile_cons_of_neg hp]
      exact ⟨nofun, fun h => absurd (h first (List.mem_cons_self ..) hle) hp⟩

/-! ### Delivery of everything that parses -/

/-- The item is pending under an id. -/
structure IsPending (disk : Disk) (id : String) (body : Bytes) : Prop where
  nonempty : id ≠ ""
  held : held disk .root id = some body

private theorem isPending_iff {disk : Disk} {id : String} {body : Bytes} :
    IsPending disk id body ↔ ∃ item ∈ itemsAt disk, item.id = id ∧
      held disk .root id = some body := by
  constructor
  · intro h
    obtain ⟨item, hitem, hid⟩ :=
      exists_mem_itemsAt.mpr ⟨h.nonempty, Option.isSome_iff_exists.mpr ⟨body, h.held⟩⟩
    exact ⟨item, hitem, hid, h.held⟩
  · rintro ⟨item, hitem, hid, hheld⟩
    exact ⟨(exists_mem_itemsAt.mp ⟨item, hitem, hid⟩).1, hheld⟩

/-- An item is passed when a request can be made of every item up to it. -/
private theorem mem_passed_iff {disk : Disk} {sent : Bytes → Option Request} {item : PendingItem}
    (hitem : item ∈ itemsAt disk) :
    item ∈ passed sent (bodyOn disk) (itemsAt disk) ↔
      ∀ other content, IsPending disk other content → other ≤ item.id →
        (sent content).isSome := by
  refine (mem_takeWhile_of_sorted (itemsAt_sorted disk) hitem).trans ?_
  constructor
  · intro h other content hpending hle
    obtain ⟨first, hfirst, rfl, hheld⟩ := isPending_iff.mp hpending
    have hsent := h first hfirst hle
    rw [bodyOn, hheld] at hsent
    exact hsent
  · intro h first hfirst hle
    obtain ⟨hid, hsome⟩ := exists_mem_itemsAt.mp ⟨first, hfirst, rfl⟩
    obtain ⟨body, hbody⟩ := Option.isSome_iff_exists.mp hsome
    rw [bodyOn, hbody]
    exact h first.id body ⟨hid, hbody⟩ hle

variable (encoders)

/-- The body is that of a batch. -/
def Parses (body : Bytes) : Prop :=
  (encoders.serde.decode (DamBatch.codec encoders.serde) body).isSome

/-- Every item that was pending and is a batch has been delivered and acknowledged. -/
def AllDelivered (pass : Pass) (disk : Disk) (w : World) : Prop :=
  ∀ id body, IsPending disk id body → Parses encoders body →
    (∃ request ∈ w.received, pass.request encoders body = some request) ∧
      held w.disk .root id = none

/-- A request can be made of every pending item whose id is up to that of a batch. -/
def Unblocked (builds : Request → Bool) (pass : Pass) (disk : Disk) : Prop :=
  ∀ id body, IsPending disk id body → Parses encoders body →
    ∀ other content, IsPending disk other content → other ≤ id →
      (pass.sent encoders builds content).isSome

variable {encoders}

/-- What is left of a pending item tells whether it was passed. -/
private theorem Emptied.root_eq_none_iff {sent : Bytes → Option Request}
    {bodyOf : PendingItem → Bytes} {items : List PendingItem} {w w' : World}
    (h : Emptied sent bodyOf items w w') {id : String} {body : Bytes}
    (hheld : held w.disk .root id = some body) :
    held w'.disk .root id = none ↔ id ∈ items.map PendingItem.id := by
  rw [h.root id]
  by_cases hid : id ∈ items.map PendingItem.id
  · simp [hid]
  · simp [hid, hheld]

/-- What has been delivered was not blocked. -/
private theorem unblocked_of_delivered {pass : Pass} {disk : Disk} {w : World}
    (hemptied : Emptied (pass.sent encoders builds) (bodyOn disk)
      (passed (pass.sent encoders builds) (bodyOn disk) (itemsAt disk)) ⟨disk, []⟩ w)
    (hdelivered : AllDelivered encoders pass disk w) : Unblocked encoders builds pass disk := by
  intro id body hpending hparses
  have hmem := (hemptied.root_eq_none_iff hpending.held).mp (hdelivered _ _ hpending hparses).2
  obtain ⟨item, hitem, rfl⟩ := List.mem_map.mp hmem
  exact (mem_passed_iff ((List.takeWhile_sublist _).subset hitem)).mp hitem

/-- A pass comes to an end, and at every end all batches have been delivered exactly when
none was behind an item of which no request can be made. -/
theorem allDelivered_iff_unblocked (encoders : Encoders) (builds : Request → Bool) (pass : Pass)
    (disk : Disk) :
    (∃ result w, Ends (Accepting builds) (pass.program encoders) ⟨disk, []⟩ result w) ∧
      ∀ result w, Ends (Accepting builds) (pass.program encoders) ⟨disk, []⟩ result w →
        (AllDelivered encoders pass disk w ↔ Unblocked encoders builds pass disk) := by
  refine ⟨⟨_, _, ends_run (accepting_perform builds) _ _⟩, fun result w hends => ?_⟩
  have hemptied := (pass.ensures disk).ends hends
  refine ⟨unblocked_of_delivered hemptied, fun hunblocked id body hpending hparses => ?_⟩
  have hsendable := hunblocked id body hpending hparses
  obtain ⟨item, hitem, rfl, hheld⟩ := isPending_iff.mp hpending
  have hmem := (mem_passed_iff hitem).mpr hsendable
  obtain ⟨request, hsent⟩ := Option.isSome_iff_exists.mp (hsendable _ _ hpending (le_refl _))
  refine ⟨⟨request, ?_, (Option.filter_eq_some_iff.mp hsent).1⟩, ?_⟩
  · rw [hemptied.received]
    refine List.mem_append_right _ (List.mem_filterMap.mpr ⟨item, hmem, ?_⟩)
    rw [bodyOn, hheld]
    exact hsent
  · exact (hemptied.root_eq_none_iff hheld).mpr (List.mem_map_of_mem hmem)

/-! ### Concrete spools -/

/-- A batch with one health report. -/
def healthBatch : DamBatch :=
  Observer.epochBatch
    [Observer.sensorHealthEvent (.ofDigests []) .sample 0 0 ⟨true, 0, 0, 0, 0⟩]

def healthEncoders : Encoders where
  serde := Observer.serdeOf healthBatch
  gzip := id
  calendar _ := ⟨1970, 1, 1, 0⟩

/-- The pass to an Outpost without a token. -/
def localPass : Pass := .observer "http://outpost/v1/batches" none

/-- A spool with the batch. -/
def healthDisk : Disk := stored .empty "b" (Observer.textOf healthBatch)

/-- A spool with an empty file before the batch. -/
def blockedDisk : Disk := stored (stored .empty "a" []) "b" (Observer.textOf healthBatch)

private theorem healthBatch_decode :
    healthEncoders.serde.decode (DamBatch.codec healthEncoders.serde)
        (Observer.textOf healthBatch) =
      some ((DamBatch.codec healthEncoders.serde).reread healthBatch) := by
  have hwritten : ((DamBatch.codec (.ofDocument .null 0)).write healthBatch).isSome := by
    decide +kernel
  have hdepth : (DamBatch.codec healthEncoders.serde).depth healthBatch ≤ 127 := by
    rw [DamBatch.codec_depth_le _ (by decide)]
    intro event hevent query hquery
    rw [List.mem_singleton.mp hevent] at hquery
    cases hquery
  exact (Serde.decode_encode (Observer.encode_serdeOf hwritten)).trans (if_pos hdepth)

/-- An empty file is no batch. -/
private theorem empty_decode :
    healthEncoders.serde.decode (DamBatch.codec healthEncoders.serde) [] = none := by
  have htext : ([] : Bytes) ≠ Observer.textOf healthBatch := by decide +kernel
  have hslice : healthEncoders.serde.fromSlice [] = none := by
    change (if [] = Observer.textOf healthBatch ∧ (Observer.documentOf healthBatch).depth ≤ 127 then
      some (Observer.documentOf healthBatch) else none) = none
    exact if_neg fun h => htext h.1
  unfold Serde.decode
  rw [hslice]
  rfl

/-- A request is sent for every batch. -/
private theorem localPass_sent (body : Bytes) :
    (localPass.sent healthEncoders (fun _ => true) body).isSome =
      (healthEncoders.serde.decode (DamBatch.codec healthEncoders.serde) body).isSome := by
  change ((observerRequest healthEncoders.serde _ none body).filter _).isSome = _
  unfold observerRequest
  cases healthEncoders.serde.decode (DamBatch.codec healthEncoders.serde) body <;> rfl

private theorem numbered_empty : Numbered .empty := by
  rintro path file hget
  cases hget

private theorem held_healthDisk :
    held healthDisk = (held .empty).set .root "b" (some (Observer.textOf healthBatch)) :=
  numbered_empty.held_stored

private theorem held_blockedDisk :
    held blockedDisk = ((held .empty).set .root "a" (some [])).set .root "b"
      (some (Observer.textOf healthBatch)) := by
  have hnumbered : Numbered (stored .empty "a" []) := by
    intro path file hget
    change Table.get? (Table.insert (Table.erase (Table.insert .empty _ 0) _) _ 0) path = some file
      at hget
    rw [Table.get?_insert, Table.get?_erase, Table.get?_insert] at hget
    change file < 1
    split at hget
    · cases hget
      decide
    · split at hget
      · cases hget
      · cases hget
  unfold blockedDisk
  rw [hnumbered.held_stored, numbered_empty.held_stored]

/-- A batch alone in the spool is delivered. -/
theorem healthDisk_delivered :
    ∃ result w, Ends (Accepting fun _ => true) (localPass.program healthEncoders)
        ⟨healthDisk, []⟩ result w ∧
      AllDelivered healthEncoders localPass healthDisk w := by
  obtain ⟨⟨result, w, hends⟩, hiff⟩ :=
    allDelivered_iff_unblocked healthEncoders (fun _ => true) localPass healthDisk
  refine ⟨result, w, hends, (hiff result w hends).mpr ?_⟩
  rintro id body - - other content ⟨-, hheld⟩ -
  have hcontent : content = Observer.textOf healthBatch := by
    rw [held_healthDisk] at hheld
    by_cases hother : other = "b"
    · rw [hother, Holdings.set_self] at hheld
      exact (Option.some.inj hheld).symm
    · rw [Holdings.set_of_ne _ _ hother] at hheld
      cases hheld
  rw [hcontent, localPass_sent, healthBatch_decode]
  rfl

/-- A batch behind an empty file is not delivered. -/
theorem blockedDisk_undelivered :
    ∃ result w, Ends (Accepting fun _ => true) (localPass.program healthEncoders)
        ⟨blockedDisk, []⟩ result w ∧
      ¬AllDelivered healthEncoders localPass blockedDisk w := by
  refine ⟨_, _, ends_run (accepting_perform _) _ _, fun hdelivered => ?_⟩
  have hends := ends_run (accepting_perform fun _ => true) (localPass.program healthEncoders)
    ⟨blockedDisk, []⟩
  have hunblocked := unblocked_of_delivered ((localPass.ensures blockedDisk).ends hends) hdelivered
  have hbatch : IsPending blockedDisk "b" (Observer.textOf healthBatch) := by
    refine ⟨by decide, ?_⟩
    rw [held_blockedDisk, Holdings.set_self]
  have hempty : IsPending blockedDisk "a" [] := by
    refine ⟨by decide, ?_⟩
    rw [held_blockedDisk, Holdings.set_of_ne _ _ (by decide), Holdings.set_self]
  have hparses : Parses healthEncoders (Observer.textOf healthBatch) := by
    unfold Parses
    rw [healthBatch_decode]
    rfl
  have hsent := hunblocked "b" _ hbatch hparses "a" [] hempty (by decide)
  rw [localPass_sent, empty_decode] at hsent
  cases hsent

end MongoDam.Pipeline
