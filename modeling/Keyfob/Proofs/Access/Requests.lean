import Keyfob.Proofs.Store.Durability

/-!
# Boot requests that cannot be taken back

The requests for a mode are taken back one at a time, the winning one first, and the call ends at
the first write that fails. So it makes the writes of all requests up to the first that fails
(`BootMode.take_eq`), and each request whose write is seen is gone by then, although the mode it
asked for was not returned. Where every write is accepted the first request is returned and none is
left; where one fails, the next attempt returns the first request that is left, which is the one
that the failed call would have returned just where no write was seen (`BootMode.take_again`).
-/
namespace Keyfob

open KeyValueStore (Change View)

/-- A store is seen as it is while it can be looked at. -/
def KeyValueStore.View.Truthful {κ : Type} [KeyValueStore κ] (view : View κ) : Prop :=
  ∀ {store : κ}, view.Fit store →
    KeyValueStore.contents (view.look store) = KeyValueStore.contents store

namespace KeyValueStore.View

/-- A store in memory is seen as it is. -/
theorem truthful_memory : memory.Truthful := fun _ => rfl

/-- A store in a document is seen as it is. -/
theorem truthful_document : document.Truthful := fun _ => rfl

/-- A store in a document is opened again as it is while its document is up to date. -/
theorem truthful_reopened : reopened.Truthful := fun fit => fit.1.held_again

end KeyValueStore.View

namespace BootMode

variable {κ : Type} [KeyValueStore κ]

/-- The change that takes a request back. -/
def clearing (mode : BootMode) : Change := .set mode.space mode.key (.bool false)

/-- Whether some contents hold the request for a mode. -/
def askedIn (contents : Namespaces) (mode : BootMode) : Bool :=
  contents.find? mode.space mode.key = some (.bool true)

/-- The modes that some contents hold a request for, the first winning. -/
def requests (contents : Namespaces) : List BootMode := all.filter (askedIn contents)

/-- The request for a mode is a flag that reads as true. -/
theorem getBool?_eq_true_iff (store : κ) (mode : BootMode) :
    KeyValueStore.getBool? store mode.space mode.key = some true ↔
      askedIn (KeyValueStore.contents store) mode = true := by
  rw [askedIn, decide_eq_true_iff, KeyValueStore.getBool?, KeyValueStore.get?]
  cases (KeyValueStore.contents store).find? mode.space mode.key with
  | none => exact iff_of_false nofun nofun
  | some value =>
    cases value with
    | bool held => simp only [Option.some.injEq, StoreValue.bool.injEq]
    | int number => exact iff_of_false nofun nofun
    | string t => exact iff_of_false nofun nofun

/-- The request for a mode is under a key of its own. -/
theorem touches_clearing (mode other : BootMode) :
    mode.clearing.touches other.space other.key = decide (mode = other) := by
  cases mode <;> cases other <;> decide

/-- Taking a request back leaves the other ones. -/
theorem filter_askedIn_on (contents : Namespaces) (mode : BootMode) (modes : List BootMode) :
    modes.filter (askedIn (mode.clearing.on contents)) =
      (modes.filter (askedIn contents)).filter (· ≠ mode) := by
  rw [List.filter_filter]
  refine List.filter_congr fun other _ => ?_
  rw [askedIn, askedIn, Change.find?_on, touches_clearing]
  by_cases same : mode = other
  · simp [same, clearing, Change.left]
  · have apart : other ≠ mode := fun other => same other.symm
    simp [same, apart]

/-- So it leaves all requests for modes that it is not about. -/
theorem filter_askedIn_on_of_not_mem (contents : Namespaces) {mode : BootMode}
    {modes : List BootMode} (apart : mode ∉ modes) :
    modes.filter (askedIn (mode.clearing.on contents)) = modes.filter (askedIn contents) := by
  rw [filter_askedIn_on, List.filter_eq_self]
  intro other listed
  rw [decide_eq_true_iff]
  rintro rfl
  exact apart (List.mem_filter.mp listed).1

/-- A mode is asked for once. -/
theorem nodup_requests (contents : Namespaces) : (requests contents).Nodup :=
  List.Pairwise.filter _ (by decide : all.Nodup)

/-- Taking the first of the requests back leaves those after it. -/
theorem requests_on {contents : Namespaces} {mode : BootMode} {modes : List BootMode}
    (asked : requests contents = mode :: modes) :
    requests (mode.clearing.on contents) = modes := by
  have distinct := nodup_requests contents
  rw [asked, List.nodup_cons] at distinct
  have others : (mode :: modes).filter (· ≠ mode) = modes.filter (· ≠ mode) :=
    List.filter_cons_of_neg (by simp)
  rw [requests, filter_askedIn_on, ← requests, asked, others, List.filter_eq_self]
  intro other listed
  rw [decide_eq_true_iff]
  rintro rfl
  exact distinct.1 listed

/-- Taking the first of the requests back, any number of them, leaves those after them. -/
theorem requests_foldl (contents : Namespaces) (n : Nat) :
    requests ((((requests contents).map clearing).take n).foldl Change.on contents) =
      (requests contents).drop n := by
  induction n generalizing contents with
  | zero => rfl
  | succ n ih =>
    cases asked : requests contents with
    | nil => exact asked
    | cons mode modes =>
      have left := requests_on asked
      have next := ih (mode.clearing.on contents)
      rw [left] at next
      exact next

/-- The requests for some modes are taken back by the writes of those that are there, up to the
first that fails. The result is the mode that won before, or the first one asked for. -/
theorem takeFrom_eq {view : View κ} (truthful : view.Truthful) {store : κ} (fit : view.Fit store)
    (won : Option BootMode) {modes : List BootMode} (distinct : modes.Nodup) :
    let asked := modes.filter (askedIn (KeyValueStore.contents store))
    let made := KeyValueStore.applyAll (asked.map clearing) store
    takeFrom won modes store = (made.1.map fun _ => won.or asked.head?, made.2) := by
  induction modes generalizing won store with
  | nil => exact congrArg (fun won => (Except.ok won, store)) Option.or_none.symm
  | cons mode modes ih =>
    obtain ⟨apart, others⟩ := List.nodup_cons.mp distinct
    rw [takeFrom]
    by_cases there : askedIn (KeyValueStore.contents store) mode = true
    · rw [if_pos ((getBool?_eq_true_iff store mode).mpr there), List.filter_cons_of_pos there]
      dsimp only
      rw [List.map_cons, KeyValueStore.applyAll]
      cases outcome : KeyValueStore.apply store mode.clearing with
      | mk result after =>
        have set : KeyValueStore.set mode.space mode.key (.bool false) store = (result, after) :=
          outcome
        rw [set]
        cases result with
        | ok _ =>
          obtain ⟨fitAfter, made⟩ := view.made fit outcome
          rw [truthful fit, truthful fitAfter] at made
          have first (later : Option BootMode) :
              (won.or (some mode)).or later = won.or (some mode) := by
            rw [Option.or_assoc, Option.some_or]
          have rest := ih fitAfter (won.or (some mode)) others
          rw [made, filter_askedIn_on_of_not_mem _ apart] at rest
          simp only [first] at rest
          exact rest
        | error e => rfl
    · rw [if_neg fun flag => there ((getBool?_eq_true_iff store mode).mp flag),
        List.filter_cons_of_neg there]
      exact ih fit won others

/-- What is left of some requests begins as they do just where it is all of them. -/
theorem head?_drop_eq_iff {asked : List BootMode} (distinct : asked.Nodup) (any : asked ≠ [])
    (n : Nat) : (asked.drop n).head? = asked.head? ↔ n = 0 := by
  obtain ⟨mode, modes, rfl⟩ := List.exists_cons_of_ne_nil any
  obtain ⟨apart, -⟩ := List.nodup_cons.mp distinct
  constructor
  · intro same
    cases n with
    | zero => rfl
    | succ n =>
      rw [List.drop_succ_cons, List.head?_cons] at same
      exact absurd (List.mem_of_mem_drop (List.mem_of_mem_head? same)) apart
  · rintro rfl
    rfl

section Attempt

variable {view : View κ} (truthful : view.Truthful) {store : κ} (fit : view.Fit store)
  {asked : List BootMode} (held : requests (KeyValueStore.contents store) = asked)

include truthful fit held

/-- The requests are taken back by their writes, up to the first that fails. -/
theorem take_eq :
    take store = ((KeyValueStore.applyAll (asked.map clearing) store).1.map fun _ => asked.head?,
      (KeyValueStore.applyAll (asked.map clearing) store).2) := by
  subst held
  exact takeFrom_eq truthful fit none (by decide)

/-- What is left of the requests, as it is seen after the attempt. -/
theorem requests_take :
    requests (KeyValueStore.contents (view.look (take store).2)) =
      asked.drop (view.seen (asked.map clearing) store) := by
  have after := congrArg Prod.snd (take_eq truthful fit held)
  rw [after, view.contents_applyAll fit, truthful fit, ← held]
  exact requests_foldl _ _

/-- While no write fails, the attempt gives the first request. -/
theorem take_of_unfailing (unfailing : KeyValueStore.Unfailing store) :
    (take store).1 = .ok asked.head? := by
  rw [take_eq truthful fit held, unfailing]
  rfl

/-- An attempt that gives a result gives the first request, and all of them are gone then. -/
theorem take_of_ok {mode : Option BootMode} (ok : (take store).1 = .ok mode) :
    mode = asked.head? ∧ requests (KeyValueStore.contents (view.look (take store).2)) = [] := by
  have left := requests_take truthful fit held
  rw [take_eq truthful fit held] at ok
  cases made : (KeyValueStore.applyAll (asked.map clearing) store).1 with
  | ok _ =>
    rw [made] at ok
    cases ok
    rw [view.seen_of_ok made, List.length_map, List.drop_length] at left
    exact ⟨rfl, left⟩
  | error e =>
    rw [made] at ok
    cases ok

/-- An attempt that fails had something to take back. The requests are gone whose writes were
accepted, and one more where a write that fails is seen. -/
theorem take_of_error {e : StoreError} (failed : (take store).1 = .error e) :
    asked ≠ [] ∧ requests (KeyValueStore.contents (view.look (take store).2)) =
      asked.drop (KeyValueStore.accepted (asked.map clearing) store + view.late.toNat) := by
  have left := requests_take truthful fit held
  have most := KeyValueStore.accepted_le (asked.map clearing) store
  have cut : KeyValueStore.accepted (asked.map clearing) store ≠ (asked.map clearing).length := by
    intro all
    have made := (KeyValueStore.ok_iff_accepted (asked.map clearing) store).mpr all
    rw [take_eq truthful fit held, made] at failed
    cases failed
  have one : view.late.toNat ≤ 1 := Bool.toNat_le view.late
  have seen : view.seen (asked.map clearing) store =
      KeyValueStore.accepted (asked.map clearing) store + view.late.toNat :=
    Nat.min_eq_right (by omega)
  rw [seen] at left
  refine ⟨fun none' => cut ?_, left⟩
  rw [none']
  rfl

end Attempt

/-- A store in memory can be cut at any place: the requests are left whose writes are past it. -/
theorem requests_take_memory (held : Namespaces) (n : Nat) :
    requests (take ({ held := held, allowance := some n } : MemoryStore)).2.held =
      (requests held).drop n := by
  let store : MemoryStore := { held := held, allowance := some n }
  have fit : View.memory.Fit store := trivial
  have asked : requests (KeyValueStore.contents store) = requests held := rfl
  have left := requests_take View.truthful_memory fit asked
  rw [View.seen, KeyValueStore.accepted_memory, List.length_map] at left
  refine left.trans (List.drop_eq_drop_iff.mpr ?_)
  have seen : View.memory.late.toNat = 0 := rfl
  omega

/-- A store in a document has one request less in memory, after an attempt that failed, than when it
is opened again. -/
theorem requests_take_document {store : DocumentStore} (settled : store.Settled)
    (ordered : store.held.Ordered) {e : StoreError} (failed : (take store).1 = .error e) :
    let asked := requests store.held
    let made := KeyValueStore.accepted (asked.map clearing) store
    requests (take store).2.held = asked.drop (made + 1) ∧
      requests (take store).2.again.held = asked.drop made :=
  ⟨(take_of_error View.truthful_document ordered rfl failed).2,
    (take_of_error View.truthful_reopened ⟨settled, ordered⟩ rfl failed).2⟩

/-- An attempt to take all requests back, whatever is asked for and wherever the writes begin to
fail. Where it gives a result, that is the first request, and every flag reads as false or is absent
afterwards. Where it fails, the requests are gone whose writes were accepted, with one more where a
write that fails is seen nevertheless, and the next attempt, made while no write fails, gives the
first of those that are left. The first attempt would have given the same without the failure just
where no request is gone. -/
theorem take_again (view : View κ) (truthful : view.Truthful) {store : κ} (fit : view.Fit store) :
    let asked := requests (KeyValueStore.contents store)
    let taken := take store
    let gone := KeyValueStore.accepted (asked.map clearing) store + view.late.toNat
    (∀ {mode}, taken.1 = .ok mode → mode = asked.head? ∧ ∀ boot : BootMode,
      KeyValueStore.getBool? (view.look taken.2) boot.space boot.key = some false ∨
        KeyValueStore.getBool? (view.look taken.2) boot.space boot.key = none) ∧
    (∀ {e}, taken.1 = .error e → ∀ {whole ready : κ},
      view.Fit whole → KeyValueStore.Unfailing whole →
      KeyValueStore.contents whole = KeyValueStore.contents store →
      view.Fit ready → KeyValueStore.Unfailing ready →
      KeyValueStore.contents ready = KeyValueStore.contents (view.look taken.2) →
        (take whole).1 = .ok asked.head? ∧
        (take ready).1 = .ok (asked.drop gone).head? ∧
        ((take ready).1 = (take whole).1 ↔ gone = 0)) := by
  intro asked taken gone
  constructor
  · intro mode ok
    obtain ⟨first, left⟩ := take_of_ok truthful fit rfl ok
    refine ⟨first, fun boot => ?_⟩
    have idle : ¬KeyValueStore.getBool? (view.look taken.2) boot.space boot.key = some true := by
      rw [getBool?_eq_true_iff]
      exact List.filter_eq_nil_iff.mp left boot (by cases boot <;> decide)
    cases flag : KeyValueStore.getBool? (view.look taken.2) boot.space boot.key with
    | none => exact .inr rfl
    | some held =>
      cases held with
      | false => exact .inl rfl
      | true => exact absurd flag idle
  · intro e failed whole ready fitWhole unfailingWhole same fitReady unfailingReady later
    obtain ⟨any, left⟩ := take_of_error truthful fit rfl failed
    have unspoilt : (take whole).1 = .ok asked.head? :=
      take_of_unfailing truthful fitWhole (congrArg requests same) unfailingWhole
    have again : (take ready).1 = .ok (asked.drop gone).head? :=
      take_of_unfailing truthful fitReady ((congrArg requests later).trans left) unfailingReady
    refine ⟨unspoilt, again, ?_⟩
    rw [again, unspoilt, Except.ok.injEq]
    exact head?_drop_eq_iff (nodup_requests _) any gone

/-- All modes are asked for in a store in a document, which can be written just once more: two
requests are gone from memory after the attempt, and the next one gives the third. -/
theorem take_again_document :
    let request (mode : BootMode) (contents : Namespaces) : Namespaces :=
      contents.put mode.space mode.key (.bool true)
    let store : DocumentStore := { held := all.foldr request ∅, allowance := some 1 }
    let ready : DocumentStore := { (take store).2 with allowance := none }
    (take store).1 = .error .io ∧ (take ready).1 = .ok (some .msc) := by
  intro request store ready
  have fit : View.document.Fit store := ((Namespaces.ordered_empty.put _ _ _).put _ _ _).put _ _ _
  have later : View.document.Fit ready := (Namespaces.Ordered.put fit _ _ _).put _ _ _
  have failed : (take store).1 = .error .io := rfl
  have writable : KeyValueStore.Unfailing ready := KeyValueStore.unfailing_document rfl
  let whole : DocumentStore := { store with allowance := none }
  have fitWhole : View.document.Fit whole := fit
  have unfailing : KeyValueStore.Unfailing whole := KeyValueStore.unfailing_document rfl
  obtain ⟨-, next⟩ := take_again View.document View.truthful_document fit
  obtain ⟨-, third, -⟩ := next failed fitWhole unfailing rfl later writable rfl
  exact ⟨failed, third⟩

/-- The wireless and the serial link are asked for, and the second write fails: the next attempt
gives the serial link, and the wireless one is lost. -/
theorem take_again_lost :
    let held := (request .cdc (request .ble ({} : MemoryStore)).2).2.held
    let store : MemoryStore := { held := held, allowance := some 1 }
    let ready : MemoryStore := { (take store).2 with allowance := none }
    (take ({ held := held } : MemoryStore)).1 = .ok (some .ble) ∧
      (take store).1 = .error .io ∧
      (take ready).1 = .ok (some .cdc) ∧
      (take (take ready).2).1 = .ok none :=
  ⟨rfl, rfl, rfl, rfl⟩

end BootMode

end Keyfob
