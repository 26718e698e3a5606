import Keyfob.Proofs.Access.Loading
import Keyfob.Proofs.Session.Dialog
import Keyfob.Proofs.Text.Fields

/-!
# Credentials that are listed and sent back

Whatever text is sent, the credentials that are read from it have halves with something in them,
no blank around and no comma inside (`Credential.Plain`). A listing of such credentials, its lines
joined by commas, has just their halves as its fields, so that the same credentials are read from
it again (`Credential.parse_listing`): a listing that is sent back does what the text did that was
sent first (`Credentials.restored_by_listing`).
-/
namespace Keyfob

open KeyValueStore (View Unfailing)

/-- A text that is a field as it stands: something is in it, no blank is around it, and no comma
inside. -/
structure Text.Tidy (t : Text) : Prop where
  /-- Something is in it. -/
  nonempty : t ≠ []
  /-- No blank is around it. -/
  trimmed : t.trim = t
  /-- No comma is inside. -/
  undivided : ',' ∉ t

namespace Credential

/-- A credential whose halves are fields as they stand. -/
structure Plain (credential : Credential) : Prop where
  /-- The name is one. -/
  name : credential.name.Tidy
  /-- The secret is one. -/
  secret : credential.secret.Tidy

/-- A credential with something in both halves. -/
def Whole (credential : Credential) : Prop := credential.name ≠ [] ∧ credential.secret ≠ []

instance (credential : Credential) : Decidable credential.Whole :=
  inferInstanceAs (Decidable (_ ∧ _))

/-- The halves of a credential. -/
def halves (credential : Credential) : List Text := [credential.name, credential.secret]

/-- The credential in the two fields at a place, without the blanks around them. -/
def pairAt (fields : List Text) (place : Nat) : Credential :=
  ⟨(fields[2 * place]?.getD []).trim, (fields[2 * place + 1]?.getD []).trim⟩

/-- The lines of credentials with commas between. -/
def listing (list : List Credential) : Text := Text.join [','] (list.map line)

/-! ## Reading -/

/-- Fields are read two by two from the first on, and each pair keeps its place. -/
theorem pairs_map_trim : ∀ fields : List Text,
    pairs (fields.map Text.trim) = (List.range (fields.length / 2)).map (pairAt fields)
  | [] => rfl
  | [field] => by
    have none' : [field].length / 2 = 0 := by rw [List.length_singleton]
    rw [none']
    rfl
  | name :: secret :: rest => by
    have half : (name :: secret :: rest).length / 2 = rest.length / 2 + 1 := by
      rw [List.length_cons, List.length_cons]
      omega
    have later : pairAt (name :: secret :: rest) ∘ Nat.succ = pairAt rest := rfl
    have spread : (List.range (rest.length / 2 + 1)).map (pairAt (name :: secret :: rest)) =
        ⟨name.trim, secret.trim⟩ :: (List.range (rest.length / 2)).map (pairAt rest) := by
      rw [List.range_succ_eq_map, List.map_cons, List.map_map, later]
      rfl
    rw [half, spread, ← pairs_map_trim rest]
    rfl

/-- What is read from a text are its first whole pairs. -/
theorem parse_eq (data : Text) :
    parse data = ((((List.range ((Text.splitAll ',' data).length / 2)).map
      (pairAt (Text.splitAll ',' data))).filter fun pair => pair.Whole).take capacity) := by
  have whole (pair : Credential) :
      (!pair.name.isEmpty && !pair.secret.isEmpty) = decide pair.Whole := by
    rw [Bool.eq_iff_iff, decide_eq_true_iff]
    simp [Whole]
  rw [parse, pairs_map_trim]
  simp only [whole]

/-- A whole pair of fields is a plain credential. -/
theorem plain_pairAt {data : Text} {place : Nat}
    (whole : (pairAt (Text.splitAll ',' data) place).Whole) :
    (pairAt (Text.splitAll ',' data) place).Plain := by
  have tidy (place : Nat) (some' : ((Text.splitAll ',' data)[place]?.getD []).trim ≠ []) :
      ((Text.splitAll ',' data)[place]?.getD []).trim.Tidy := by
    refine ⟨some', Text.trim_trim _, fun inside => ?_⟩
    have comma := Text.mem_of_mem_trim inside
    cases here : (Text.splitAll ',' data)[place]? with
    | none =>
      rw [here] at comma
      cases comma
    | some field =>
      rw [here] at comma
      exact Text.notMem_of_mem_splitAll (List.mem_of_getElem? here) comma
  exact ⟨tidy _ whole.1, tidy _ whole.2⟩

/-- Credentials that are read are plain. -/
theorem plain_of_mem_parse {data : Text} {credential : Credential}
    (listed : credential ∈ parse data) : credential.Plain := by
  rw [parse_eq] at listed
  obtain ⟨pair, whole⟩ := List.mem_filter.mp (List.mem_of_mem_take listed)
  obtain ⟨place, -, rfl⟩ := List.mem_map.mp pair
  exact plain_pairAt (of_decide_eq_true whole)

/-! ## Listing -/

section Listing

variable {list : List Credential}

/-- A listing is the halves of its credentials with commas between. -/
theorem listing_eq (list : List Credential) :
    listing list = Text.join [','] (list.flatMap halves) := by
  unfold listing
  induction list with
  | nil => rfl
  | cons credential list ih =>
    have line' : credential.line = credential.name ++ ',' :: credential.secret := by
      rw [line, List.append_assoc]
      rfl
    rw [List.map_cons, List.flatMap_cons, halves, List.cons_append, List.singleton_append,
      Text.join_cons _ (List.cons_ne_nil _ _)]
    cases list with
    | nil => exact line'
    | cons next later =>
      have more : (next :: later).map line ≠ [] := List.cons_ne_nil _ _
      have halved : (next :: later).flatMap halves ≠ [] := List.cons_ne_nil _ _
      rw [Text.join_cons _ more, Text.join_cons _ halved, ih, line', List.append_assoc,
        List.cons_append]

/-- The halves of plain credentials are fields as they stand. -/
theorem tidy_of_mem_halves (plain : ∀ credential ∈ list, credential.Plain) {t : Text}
    (listed : t ∈ list.flatMap halves) : t.Tidy := by
  obtain ⟨credential, among, half⟩ := List.mem_flatMap.mp listed
  cases List.mem_cons.mp half with
  | inl name => exact name ▸ (plain credential among).name
  | inr secret => exact List.mem_singleton.mp secret ▸ (plain credential among).secret

/-- Halves are paired to the credentials that they are of. -/
theorem pairs_flatMap_halves (list : List Credential) : pairs (list.flatMap halves) = list := by
  induction list with
  | nil => rfl
  | cons credential list ih => exact congrArg (credential :: ·) ih

/-- There is no blank around a listing of plain credentials. -/
theorem trim_listing (plain : ∀ credential ∈ list, credential.Plain) :
    (listing list).trim = listing list := by
  rw [listing_eq]
  exact Text.trim_join (by decide) fun t listed => (tidy_of_mem_halves plain listed).trimmed

/-- Plain credentials that can be kept are read from their listing. -/
theorem parse_listing (plain : ∀ credential ∈ list, credential.Plain)
    (short : list.length ≤ capacity) : parse (listing list) = list := by
  by_cases nothing : list = []
  · rw [nothing]
    rfl
  have some' : list.flatMap halves ≠ [] := by
    cases list with
    | nil => exact absurd rfl nothing
    | cons credential list => exact List.cons_ne_nil _ _
  have fields : Text.splitAll ',' (listing list) = list.flatMap halves := by
    rw [listing_eq]
    exact Text.splitAll_join some' fun t listed => (tidy_of_mem_halves plain listed).undivided
  have kept : (list.flatMap halves).map Text.trim = list.flatMap halves := by
    refine (List.map_congr_left fun t listed => ?_).trans (List.map_id _)
    exact (tidy_of_mem_halves plain listed).trimmed
  have whole : ∀ credential ∈ list,
      (!credential.name.isEmpty && !credential.secret.isEmpty) = true := by
    intro credential listed
    obtain ⟨name, secret⟩ := plain credential listed
    simp [name.nonempty, secret.nonempty]
  rw [parse, fields, kept, pairs_flatMap_halves, List.filter_eq_self.mpr whole,
    List.take_of_length_le short]

end Listing

end Credential

namespace Credentials

variable {κ : Type} [KeyValueStore κ]

/-- No more credentials are read than can be kept. -/
theorem length_parse_le (data : Text) : (Credential.parse data).length ≤ Credential.capacity :=
  length_take_le _

/-- An update that succeeds holds what was read. -/
theorem list_of_update {before after : Credentials} {data : Text} {store stored : κ}
    (updated : before.update data store = (.ok (), after, stored)) :
    after.list = Credential.parse data := by
  have made := replaceAll_eq before (Credential.parse data) store
  rw [← update, updated, Prod.mk.injEq, Prod.mk.injEq] at made
  obtain ⟨ok, held, -⟩ := made
  rw [held, ← ok, List.take_of_length_le (length_parse_le data)]
  rfl

/-- An update succeeds with any text where the store does not fail. -/
theorem update_of_unfailing (credentials : Credentials) (data : Text) {store : κ}
    (unfailing : Unfailing store) : (credentials.update data store).1 = .ok () :=
  (congrArg Prod.fst (replaceAll_eq credentials (Credential.parse data) store)).trans
    (unfailing _)

/-- An update that succeeds holds what was read, and that is what is loaded. -/
theorem loaded_of_update (view : View κ) {store stored : κ} (fit : view.Fit store)
    {before after : Credentials} {data : Text}
    (updated : before.update data store = (.ok (), after, stored)) :
    after = ⟨Credential.parse data⟩ ∧ load (view.look stored) = ⟨Credential.parse data⟩ := by
  obtain ⟨-, stores⟩ := stores_of_replaceAll view fit updated
  rw [List.take_of_length_le (length_parse_le data)] at stores
  exact ⟨congrArg Credentials.mk (list_of_update updated), load_of_stores stores⟩

/-- Whatever text an update succeeded with: the credentials are its first pairs of fields with
something in both halves, as many as can be kept, and an update with their listing is the same as
one with the text, of any credentials and any store. So the listing that a session sends, sent back
as the answer to its question, stores and loads the same credentials. -/
theorem restored_by_listing (view : View κ) {store stored later : κ} (fit : view.Fit later)
    {before listed : Credentials} {data : Text}
    (updated : before.update data store = (.ok (), listed, stored)) (other : Credentials) :
    let fields := Text.splitAll ',' data
    let listing := Text.join [','] listed.lines
    (Text.join [','] fields = data ∧ ∀ field ∈ fields, ',' ∉ field) ∧
      listed.list = (((List.range (fields.length / 2)).map (Credential.pairAt fields)).filter
        fun pair => pair.name ≠ [] ∧ pair.secret ≠ []).take 10 ∧
      listed.list.length ≤ 10 ∧ (∀ credential ∈ listed.list, credential.Plain) ∧
      listing.trim = listing ∧
      other.update listing later = other.update data later ∧
      (∀ {after : Credentials} {restored : κ},
        other.update listing later = (.ok (), after, restored) →
          after = listed ∧ load (view.look restored) = listed) ∧
      (Unfailing later → (other.update listing later).1 = .ok ()) ∧
      ∀ {δ φ ρ : Type} [ReplyPort ρ],
        (∀ (code : Text) (exchange : Exchange δ κ φ ρ), exchange.core.credentials = listed →
          Pin.lenient code = exchange.core.codes.primary →
            Handling.answer .codeForListing code exchange =
              Handling.sendListing listed exchange.answered) ∧
          (Handling.answer .credentials listing : Handling δ κ φ ρ Unit) =
            Handling.answer .credentials data := by
  intro fields listing
  have held := list_of_update updated
  have plain : ∀ credential ∈ listed.list, credential.Plain := by
    rw [held]
    exact fun _ => Credential.plain_of_mem_parse
  have short : listed.list.length ≤ Credential.capacity := held ▸ length_parse_le data
  have reads : Credential.parse listing = listed.list := Credential.parse_listing plain short
  have same (credentials : Credentials) (store : κ) :
      credentials.update listing store = credentials.update data store := by
    rw [update, reads, held, ← update]
  refine ⟨?_, ?_, short, plain, ?_, same other later, ?_, update_of_unfailing other listing, ?_⟩
  · exact ⟨Text.join_splitAll ',' data, fun _ => Text.notMem_of_mem_splitAll⟩
  · exact held.trans (Credential.parse_eq data)
  · exact Credential.trim_listing plain
  · intro after restored made
    have loaded := loaded_of_update view fit made
    rwa [reads] at loaded
  · intro δ φ ρ _
    refine ⟨fun code exchange current right => ?_, funext fun exchange => ?_⟩
    · rw [Handling.answer_codeForListing_of_right right, current]
    · rw [Handling.answer_credentials, Handling.answer_credentials, same]

/-- Blanks, a pair without a secret, one without a name, and a last field without a partner: two
credentials are read, and from their listing again, over a store with other contents. -/
theorem restored_by_listing_stray :
    let data : Text := " A ,1, B , ,,3,C,\tx y,D"
    let listed : Credentials := ⟨[⟨"A", "1"⟩, ⟨"C", "x y"⟩]⟩
    let updated := ({} : Credentials).update data ({} : MemoryStore)
    let again := ({} : Credentials).update (Text.join [','] listed.lines) strayStore
    updated.1 = .ok () ∧ updated.2.1 = listed ∧ again.1 = .ok () ∧ again.2.1 = listed ∧
      load again.2.2 = listed := by
  intro data listed updated again
  have split {made : Except StoreError Unit × Credentials × MemoryStore} (ok : made.1 = .ok ()) :
      made = (.ok (), made.2.1, made.2.2) := Prod.ext ok rfl
  have made : updated.1 = .ok () := update_of_unfailing _ data (KeyValueStore.unfailing_memory rfl)
  have fit (store : MemoryStore) : View.memory.Fit store := trivial
  have held : updated.2.1 = listed := by
    rw [(loaded_of_update View.memory (fit _) (split made)).1]
    decide +kernel
  have outcome : updated = (.ok (), listed, updated.2.2) := held ▸ split made
  obtain ⟨-, -, -, -, -, -, loaded, succeeds, -⟩ :=
    restored_by_listing View.memory (fit strayStore) outcome {}
  have ok : again.1 = .ok () := succeeds (KeyValueStore.unfailing_memory rfl)
  obtain ⟨restored, stored⟩ := loaded (split ok)
  exact ⟨made, held, ok, restored, stored⟩

end Credentials

end Keyfob
