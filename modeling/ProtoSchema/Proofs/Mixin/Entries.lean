import Mathlib.Data.List.Sort
import Mathlib.Data.Set.Card
import ProtoSchema.Mixin.Entry
import ProtoSchema.Proofs.Descriptor.Visit

/-!
# The entries of a tree

A list of indices leads from a namespace to a message below it, through namespaces and messages
(`Namespace.at?`). The entries of the namespace are one for each message that such an address leads
to, in the order of the addresses (`Site.Enumerates`): a message comes before those nested in it,
and these before the next member. Main statement: `Namespace.entries_enumerate`. Entries are known
by what they enumerate (`Site.Enumerates.unique`), so names in front of a path stand in front of the
paths of all entries.
-/

namespace ProtoSchema

/-- The entry with more names in front of its path. -/
def Entry.prepend (front : List Text) (entry : Entry) : Entry :=
  { entry with path := front ++ entry.path }

/-- A message of a tree and the names of the namespaces and messages around it. -/
structure Site where
  names : List Text
  message : Message

namespace Site

/-- The site seen from outside of something with this name. -/
def inside (name : Text) (site : Site) : Site :=
  { site with names := name :: site.names }

/-- The entry of a site in a tree that is reached by `path`. -/
def entry (file : Text) (path : List Text) (site : Site) : Entry :=
  ⟨file, path ++ site.names, site.message⟩

/-- What an address leads to whose first index picks one of the items. -/
def below {α : Type} (items : List α) (at? : α → List Nat → Option Site) :
    List Nat → Option Site
  | [] => none
  | index :: address => items[index]?.bind (at? · address)

/-- The entries are those at the addresses, in the order of the addresses, which are all that lead
to a message. Addresses are compared index by index, and an address comes before those that go on
from it. -/
structure AreAt (file : Text) (path : List Text) (at? : List Nat → Option Site)
    (addresses : List (List Nat)) (entries : List Entry) : Prop where
  ordered : addresses.Pairwise (· < ·)
  reached : ∀ address, (at? address).isSome → address ∈ addresses
  entries : addresses.map (fun address => (at? address).map (entry file path)) = entries.map some

/-- The entries are one for each address that leads to a message, in the order of the addresses. -/
def Enumerates (file : Text) (path : List Text) (at? : List Nat → Option Site)
    (entries : List Entry) : Prop :=
  ∃ addresses, AreAt file path at? addresses entries

end Site

/-- What an address leads to from a message: the message itself, or one nested in it. -/
def Message.at? (message : Message) : List Nat → Option Site
  | [] => some ⟨[], message⟩
  | index :: address =>
      (message.messages[index]?.bind fun inner => inner.at? address).map (Site.inside message.name)

/-- What an address leads to from a declaration. -/
def Declaration.at? : Declaration → List Nat → Option Site
  | .message declared, address => declared.at? address
  | .scope name members, index :: address =>
      (members[index]?.bind fun member => member.at? address).map (Site.inside name)
  | _, _ => none

/-- What an address leads to from a namespace, whose own name is not around it. -/
def Namespace.at? (space : Namespace) : List Nat → Option Site :=
  Site.below space.members Declaration.at?

namespace Site

variable {file name : Text} {path : List Text} {at? : List Nat → Option Site}
variable {entries others : List Entry}

/-! ### Addresses -/

/-- The addresses are those that lead to a message. -/
theorem AreAt.mem_iff {addresses : List (List Nat)} (h : AreAt file path at? addresses entries)
    (address : List Nat) : address ∈ addresses ↔ (at? address).isSome := by
  refine ⟨fun hmem => ?_, h.reached address⟩
  have hentry : (at? address).map (entry file path) ∈ entries.map some := by
    rw [← h.entries]
    exact List.mem_map_of_mem hmem
  obtain ⟨found, -, hfound⟩ := List.mem_map.mp hentry
  obtain ⟨site, hsite, -⟩ := Option.map_eq_some_iff.mp hfound.symm
  rw [hsite]
  rfl

/-- Only one list of entries enumerates a tree. -/
theorem Enumerates.unique (h : Enumerates file path at? entries)
    (hothers : Enumerates file path at? others) : entries = others := by
  obtain ⟨addresses, hentries⟩ := h
  obtain ⟨again, hagain⟩ := hothers
  have hperm : addresses.Perm again := by
    refine (List.perm_ext_iff_of_nodup ?_ ?_).mpr fun address => ?_
    · exact hentries.ordered.imp ne_of_lt
    · exact hagain.ordered.imp ne_of_lt
    · rw [hentries.mem_iff, hagain.mem_iff]
  obtain rfl : addresses = again :=
    hperm.eq_of_pairwise (fun _ _ _ _ hlt hgt => absurd hgt (lt_asymm hlt)) hentries.ordered
      hagain.ordered
  have hsome : entries.map some = others.map some := hentries.entries.symm.trans hagain.entries
  exact List.map_injective_iff.mpr (Option.some_injective Entry) hsome

/-- There are as many entries as addresses of messages. -/
theorem Enumerates.length_eq (h : Enumerates file path at? entries) :
    entries.length = {address | (at? address).isSome}.ncard := by
  obtain ⟨addresses, hentries⟩ := h
  have hset : {address | (at? address).isSome} = (addresses.toFinset : Set (List Nat)) := by
    ext address
    simp [hentries.mem_iff]
  have hnodup : addresses.Nodup := hentries.ordered.imp ne_of_lt
  rw [hset, Set.ncard_coe_finset, List.toFinset_card_of_nodup hnodup]
  simpa using (congrArg List.length hentries.entries).symm

/-! ### Building enumerations -/

/-- Names in front of the path stand in front of the path of an entry. -/
theorem entry_append (front : List Text) :
    entry file (front ++ path) = Entry.prepend front ∘ entry file path := by
  funext site
  simp [entry, Entry.prepend]

/-- The name of what is around a site belongs to the path of its entry. -/
theorem entry_inside : entry file path ∘ Site.inside name = entry file (path ++ [name]) := by
  funext site
  simp [entry, Site.inside]

/-- Names in front of the path stand in front of the paths of the entries. -/
theorem Enumerates.prepend (h : Enumerates file path at? entries) (front : List Text) :
    Enumerates file (front ++ path) at? (entries.map (Entry.prepend front)) := by
  obtain ⟨addresses, hentries⟩ := h
  refine ⟨addresses, hentries.ordered, hentries.reached, ?_⟩
  have hmap := congrArg (List.map (Option.map (Entry.prepend front))) hentries.entries
  simpa [entry_append, Function.comp_def] using hmap

/-- From outside, the name of what is around the sites belongs to their names and no longer to the
path. -/
theorem Enumerates.inside (h : Enumerates file (path ++ [name]) at? entries) :
    Enumerates file path (fun address => (at? address).map (Site.inside name)) entries := by
  obtain ⟨addresses, hentries⟩ := h
  refine ⟨addresses, hentries.ordered, fun address haddress => hentries.reached address ?_, ?_⟩
  · rwa [Option.isSome_map] at haddress
  · rw [← hentries.entries]
    simp only [Option.map_map, entry_inside]

/-- The entry of a message comes before those of what is below it. -/
theorem Enumerates.cons {message : Message} {below : List Nat → Option Site}
    (hhere : at? [] = some ⟨[], message⟩) (hnone : below [] = none)
    (hbelow : ∀ index address, at? (index :: address) = below (index :: address))
    (h : Enumerates file path below entries) :
    Enumerates file path at? (⟨file, path, message⟩ :: entries) := by
  obtain ⟨addresses, hentries⟩ := h
  have hne : ∀ address ∈ addresses, address ≠ [] := by
    rintro address hmem rfl
    rw [hentries.mem_iff, hnone] at hmem
    exact Bool.false_ne_true hmem
  refine ⟨[] :: addresses, List.pairwise_cons.mpr ⟨fun address hmem => ?_, hentries.ordered⟩,
    fun address haddress => ?_, ?_⟩
  · obtain ⟨index, rest, rfl⟩ := List.exists_cons_of_ne_nil (hne address hmem)
    exact List.nil_lt_cons index rest
  · cases address with
    | nil => exact List.mem_cons_self
    | cons index address =>
        rw [hbelow] at haddress
        exact List.mem_cons_of_mem _ (hentries.reached _ haddress)
  · rw [List.map_cons, List.map_cons, hhere, ← hentries.entries]
    refine congrArg₂ List.cons (by simp [entry]) (List.map_congr_left fun address hmem => ?_)
    obtain ⟨index, rest, rfl⟩ := List.exists_cons_of_ne_nil (hne address hmem)
    rw [hbelow]

/-- The entries of items come item by item. -/
theorem Enumerates.flatMap {α : Type} {items : List α} {at? : α → List Nat → Option Site}
    {entries : α → List Entry}
    (h : ∀ item ∈ items, Enumerates file path (at? item) (entries item)) :
    Enumerates file path (below items at?) (items.flatMap entries) := by
  choose! addresses haddresses using h
  have hitem {item : α × Nat} (hmem : item ∈ items.zipIdx) :
      items[item.2]? = some item.1 ∧ AreAt file path (at? item.1) (addresses item.1)
        (entries item.1) := by
    have hindex := List.mem_zipIdx_iff_getElem?.mp hmem
    exact ⟨hindex, haddresses item.1 (List.mem_of_getElem? hindex)⟩
  refine ⟨items.zipIdx.flatMap fun item => (addresses item.1).map (item.2 :: ·),
    List.pairwise_flatMap.mpr ⟨fun item hmem => ?_, ?_⟩, fun address haddress => ?_, ?_⟩
  · refine List.pairwise_map.mpr ((hitem hmem).2.ordered.imp fun hlt => ?_)
    exact List.cons_lt_cons_iff.mpr (.inr ⟨rfl, hlt⟩)
  · refine (pairwise_zipIdx items).imp fun hlt first hfirst second hsecond => ?_
    obtain ⟨address, -, rfl⟩ := List.mem_map.mp hfirst
    obtain ⟨other, -, rfl⟩ := List.mem_map.mp hsecond
    exact List.cons_lt_cons_iff.mpr (.inl hlt)
  · cases address with
    | nil => exact absurd haddress Bool.false_ne_true
    | cons index address =>
        obtain ⟨site, hsite⟩ := Option.isSome_iff_exists.mp haddress
        obtain ⟨item, hindex, hsite⟩ := Option.bind_eq_some_iff.mp hsite
        have hreached := (haddresses item (List.mem_of_getElem? hindex)).reached address
          (Option.isSome_iff_exists.mpr ⟨site, hsite⟩)
        exact List.mem_flatMap.mpr ⟨(item, index), List.mem_zipIdx_iff_getElem?.mpr hindex,
          List.mem_map_of_mem hreached⟩
  · have hblock {item : α × Nat} (hmem : item ∈ items.zipIdx) :
        ((addresses item.1).map (item.2 :: ·)).map
            (fun address => (below items at? address).map (entry file path)) =
          (entries item.1).map some := by
      obtain ⟨hindex, hentries⟩ := hitem hmem
      rw [← hentries.entries, List.map_map]
      refine List.map_congr_left fun address _ => ?_
      show (items[item.2]?.bind (at? · address)).map _ = _
      rw [hindex, Option.bind_some]
    have hitems := List.flatMap_map Prod.fst (fun item => (entries item).map some) items.zipIdx
    rw [List.zipIdx_map_fst] at hitems
    rw [List.map_flatMap, List.flatMap_congr fun item hmem => hblock hmem, List.map_flatMap, hitems]

end Site

/-! ### Trees -/

/-- What holds of a message when it holds of those nested in it holds of every message. -/
theorem Message.nested_induction {motive : Message → Prop}
    (step : ∀ message : Message, (∀ inner ∈ message.messages, motive inner) → motive message)
    (message : Message) : motive message :=
  step message fun inner _ => nested_induction step inner
termination_by sizeOf message
decreasing_by
  cases message
  have hlt := List.sizeOf_lt_of_mem ‹_›
  simp at hlt ⊢
  omega

/-- The entries of several messages come message by message. -/
theorem Message.entriesOfList_eq (file : Text) (path : List Text) (messages : List Message) :
    Message.entriesOfList file path messages = messages.flatMap (Message.entries file path) := by
  induction messages with
  | nil => rfl
  | cons first rest ih => rw [Message.entriesOfList, ih, List.flatMap_cons]

/-- The entries of several declarations come declaration by declaration. -/
theorem Declaration.entriesOfList_eq (file : Text) (path : List Text)
    (declarations : List Declaration) :
    Declaration.entriesOfList file path declarations =
      declarations.flatMap (Declaration.entries file path) := by
  induction declarations with
  | nil => rfl
  | cons first rest ih => rw [Declaration.entriesOfList, ih, List.flatMap_cons]

/-- The entries of a message enumerate it and the messages nested in it. -/
theorem Message.enumerates_entries (file : Text) (path : List Text) (message : Message) :
    Site.Enumerates file path message.at? (message.entries file path) := by
  induction message using Message.nested_induction generalizing path with
  | step message ih =>
      have hnested := (Site.Enumerates.flatMap fun inner hmem =>
        ih inner hmem (path ++ [message.name])).inside
      have hentries : message.entries file path =
          ⟨file, path, message⟩ ::
            message.messages.flatMap (Message.entries file (path ++ [message.name])) := by
        cases message
        rw [Message.entries, Message.entriesOfList_eq]
      rw [hentries]
      refine Site.Enumerates.cons ?_ ?_ (fun index address => ?_) hnested <;> rfl

/-- Nothing is enumerated where no address leads anywhere. -/
theorem Site.Enumerates.nil {file : Text} {path : List Text} {at? : List Nat → Option Site}
    (h : ∀ address, at? address = none) : Site.Enumerates file path at? [] :=
  ⟨[], .nil, fun address haddress => by simp [h] at haddress, rfl⟩

/-- The entries of a declaration enumerate the messages in it. -/
theorem Declaration.enumerates_entries (file : Text) (path : List Text) :
    ∀ declaration : Declaration,
      Site.Enumerates file path declaration.at? (declaration.entries file path)
  | .message declared => by
      have hat : (Declaration.message declared).at? = declared.at? := by
        funext address
        cases address <;> rfl
      rw [hat]
      exact declared.enumerates_entries file path
  | .enum _ => .nil fun address => by cases address <;> rfl
  | .service _ => .nil fun address => by cases address <;> rfl
  | .scope name members => by
      have hmembers := (Site.Enumerates.flatMap fun member (hmem : member ∈ members) =>
        enumerates_entries file (path ++ [name]) member).inside
      have hat : (Declaration.scope name members).at? = fun address =>
          (Site.below members Declaration.at? address).map (Site.inside name) := by
        funext address
        cases address <;> rfl
      rw [Declaration.entries, Declaration.entriesOfList_eq, hat]
      exact hmembers

namespace Namespace

/-- The entries of a namespace enumerate the messages in it. -/
theorem enumerates_entries (space : Namespace) (file : Text) (path : List Text) :
    Site.Enumerates file path space.at? (space.entries file path) := by
  rw [Namespace.entries, Declaration.entriesOfList_eq]
  exact .flatMap fun member _ => member.enumerates_entries file path

/-- The entries of a namespace, and so those of a file, enumerate the messages at any depth in it:
each message has one entry, with the names around it after the names on the path, and the entries
come in the order of a walk that takes a message before what is nested in it. So there are as many
of them as messages, and a longer path only puts names in front. -/
theorem entries_enumerate (space : Namespace) (file : Text) (path : List Text) :
    Site.Enumerates file path space.at? (space.entries file path) ∧
      (space.entries file path).length = {address | (space.at? address).isSome}.ncard ∧
      space.entries file path = (space.entries file []).map (Entry.prepend path) ∧
      ∀ schema : File, Site.Enumerates schema.path path schema.root.at? (schema.entries path) := by
  have hentries := space.enumerates_entries file path
  have hprepended := (space.enumerates_entries file []).prepend path
  rw [List.append_nil] at hprepended
  exact ⟨hentries, hentries.length_eq, hentries.unique hprepended,
    fun schema => schema.root.enumerates_entries schema.path path⟩

end Namespace

end ProtoSchema
