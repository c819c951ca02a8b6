import Switchyard.Json.Decoder
import Switchyard.Proofs.Json.RoundTrip
import Switchyard.Proofs.Text.Utf8

/-! What decoders make of written values. A record is read from its fields when each of them
is admitted and none comes twice; a map is read entry by entry, as its keys are in order; a
tagged value is read by the decoder that its tag names. -/
namespace Switchyard.Json

/-! ### Values by their parts -/

theorem allFieldsExact_iff {fields : List (String × Json)} :
    allFieldsExact fields = true ↔ ∀ f ∈ fields, isExact f.2 = true := by
  induction fields with
  | nil => exact ⟨fun _ => nofun, fun _ => rfl⟩
  | cons f rest ih => rw [allFieldsExact, Bool.and_eq_true, ih, List.forall_mem_cons]

theorem nat_isExact {n : Nat} (h : n < 2 ^ 64) : (Json.nat n).isExact = true := by
  have hmost : (maxSignificand : Int) = 18446744073709551615 := rfl
  simp only [Json.nat, isExact, Bool.and_eq_true, decide_eq_true_eq]
  omega

theorem allFieldsWhole_iff {depth : Nat} {fields : List (String × Json)} :
    allFieldsWhole depth fields = true ↔ ∀ f ∈ fields, isWhole depth f.2 = true := by
  induction fields with
  | nil => exact ⟨fun _ => nofun, fun _ => rfl⟩
  | cons f rest ih => rw [allFieldsWhole, Bool.and_eq_true, ih, List.forall_mem_cons]

/-! ### Texts -/

theorem parse?_eq_some_iff {text : String} {j : Json} :
    parse? text = some j ↔ readChars text.toList = (j, true) ∧ j.isWhole maxDepth = true := by
  unfold parse?
  obtain ⟨j', alone⟩ := readChars text.toList
  simp only [Option.ite_none_right_eq_some, Bool.and_eq_true, Option.some.injEq, Prod.mk.injEq]
  constructor
  · rintro ⟨⟨rfl, hwhole⟩, rfl⟩
    exact ⟨⟨rfl, rfl⟩, hwhole⟩
  · rintro ⟨⟨rfl, rfl⟩, hwhole⟩
    exact ⟨⟨rfl, hwhole⟩, rfl⟩

namespace Decoder

theorem read_eq_ok_iff {α : Type} {d : Decoder α} {text : String} {a : α} :
    d.read text = .ok a ↔ ∃ j, readChars text.toList = (j, true) ∧ d j = .ok a := by
  unfold read
  obtain ⟨j, alone⟩ := readChars text.toList
  cases hd : d j <;> cases alone <;> simp [hd]

/-- Reading a written value is decoding it. -/
theorem read_write {α : Type} (d : Decoder α) {j : Json} (h : isExact j = true) :
    read d j.write = d j := by
  simp only [read, write, String.toList_ofList, readChars_chars h]
  cases d j <;> rfl

theorem readFront_write {α : Type} (d : Decoder α) {j : Json} (h : isExact j = true) :
    readFront d (Text.bytes j.write) = d j := by
  have hread : readPieces (Text.pieces (Text.bytes j.write)) = (j, true) := by
    rw [Text.pieces_bytes, write, String.toList_ofList]
    exact readChars_chars h
  rw [readFront, hread]

/-! ### Scalars -/

theorem nat_of_le {most n : Nat} (h : n ≤ most) : nat most (.nat n) = .ok n :=
  if_pos ⟨Int.natCast_nonneg n, Int.ofNat_le.2 h⟩

theorem word16_nat (n : UInt16) : word16 (.nat n.toNat) = .ok n := by
  have hn : n.toNat ≤ 65535 := Nat.le_of_lt_succ n.toNat_lt
  simp [word16, converting, nat_of_le hn]

theorem word32_nat (n : UInt32) : word32 (.nat n.toNat) = .ok n := by
  have hn : n.toNat ≤ 4294967295 := Nat.le_of_lt_succ n.toNat_lt
  simp [word32, converting, nat_of_le hn]

/-! ### Maps -/

variable {α β : Type}

theorem place_of_lt {key : String} {value : α} {l : List (String × α)}
    (h : ∀ e ∈ l, e.1 < key) : Keyed.place key value l = l ++ [(key, value)] := by
  induction l with
  | nil => rfl
  | cons e rest ih =>
    obtain ⟨he, hrest⟩ := List.forall_mem_cons.1 h
    have hlt : ¬ key < e.1 := fun h => String.lt_irrefl _ (String.lt_trans he h)
    have hne : key ≠ e.1 := fun h => String.lt_irrefl _ (h ▸ he)
    rw [Keyed.place, if_neg hlt, if_neg hne, ih hrest]
    rfl

/-- Fields in the order of their names are entered one after the other. -/
theorem fieldsInto_of_ordered {d : Decoder β} {toJson : α → Json} {f : α → β}
    {entries : List (String × α)}
    (hd : ∀ e ∈ entries, (toJson e.2).isNameless = false ∧ d (toJson e.2) = .ok (f e.2))
    (m : Keyed β)
    (ordered : (m.entries ++ entries.map fun e => (e.1, f e.2)).Pairwise fun a b => a.1 < b.1) :
    fieldsInto d m (entries.map fun e => (e.1, toJson e.2)) =
      .ok ⟨m.entries ++ entries.map fun e => (e.1, f e.2), ordered⟩ := by
  induction entries generalizing m with
  | nil =>
    simp [fieldsInto]
  | cons e rest ih =>
    obtain ⟨⟨hname, he⟩, hrest⟩ := List.forall_mem_cons.1 hd
    have hlast : (m.insert e.1 (f e.2)).entries = m.entries ++ [(e.1, f e.2)] :=
      place_of_lt fun x hx => (List.pairwise_append.1 ordered).2.2 x hx _ List.mem_cons_self
    have hsame : (m.insert e.1 (f e.2)).entries ++ rest.map (fun e => (e.1, f e.2)) =
        m.entries ++ (e :: rest).map fun e => (e.1, f e.2) := by
      rw [hlast, List.append_assoc]
      rfl
    simp only [List.map_cons, fieldsInto, hname, he]
    rw [if_neg nofun, ih hrest _ (hsame ▸ ordered)]
    simp only [hsame]
    rfl

theorem keyed_map {d : Decoder β} (toJson : α → Json) {f : α → β} {m : Keyed α}
    (hd : ∀ e ∈ m.entries, (toJson e.2).isNameless = false ∧ d (toJson e.2) = .ok (f e.2)) :
    keyed d (.obj (m.entries.map fun e => (e.1, toJson e.2))) = .ok (m.map f) :=
  fieldsInto_of_ordered hd ∅ (m.map f).ordered

/-! ### Records -/

/-- A field that a record knows, with a value that it admits there. -/
def Admitted (slots : List Slot) (f : String × Json) : Prop :=
  f.2.isNameless = false ∧ ∃ s, slots.find? (·.name = f.1) = some s ∧ s.admits f.2 = .ok ()

theorem slot_admits {name : String} {d : Decoder α} {j : Json} {a : α} (h : d j = .ok a) :
    (slot name d).admits j = .ok () := by
  simp [slot, h, Except.map]

theorem checkFields_of_admitted {slots : List Slot} {fields : List (String × Json)}
    (admitted : ∀ f ∈ fields, Admitted slots f) (once : (fields.map (·.1)).Nodup)
    {seen : List String} (fresh : ∀ f ∈ fields, f.1 ∉ seen) :
    checkFields slots seen fields = .ok () := by
  induction fields generalizing seen with
  | nil => rfl
  | cons f rest ih =>
    obtain ⟨⟨hname, s, hslot, hadmits⟩, hrest⟩ := List.forall_mem_cons.1 admitted
    obtain ⟨hnew, honce⟩ := List.nodup_cons.1 once
    obtain ⟨hf, hfresh⟩ := List.forall_mem_cons.1 fresh
    have hunseen : seen.contains f.1 = false := by simpa using hf
    simp only [checkFields, hname, hslot, hunseen, hadmits, Bool.false_eq_true, ↓reduceIte]
    refine ih hrest honce fun g hg => ?_
    rw [List.mem_cons, not_or]
    exact ⟨fun heq => hnew (List.mem_map.2 ⟨g, hg, heq⟩), hfresh g hg⟩

theorem record_of_admitted {slots : List Slot} {build : Given → Except Refusal α}
    {fields : List (String × Json)} (admitted : ∀ f ∈ fields, Admitted slots f)
    (once : (fields.map (·.1)).Nodup) :
    record slots build (.obj fields) = build (givenFields fields) := by
  have hcheck : checkFields slots [] fields = .ok () :=
    checkFields_of_admitted admitted once fun _ _ => List.not_mem_nil
  simp only [record, hcheck]

theorem required_of_given {given : Given} {name : String} {d : Decoder α} {j : Json} {a : α}
    (hname : given name = some j) (hd : d j = .ok a) : required given name d = .ok a := by
  rw [required, hname]
  exact hd

theorem defaulted_of_given {given : Given} {name : String} {d : Decoder α} {j : Json}
    {a default : α}
    (hname : given name = some j) (hd : d j = .ok a) : defaulted given name d default = .ok a := by
  rw [defaulted, hname]
  exact hd

/-! ### Tagged values -/

theorem bare_eq_ok {a b : α} {j : Json} (h : bare a j = .ok b) : a = b := by
  unfold bare at h
  split at h
  · exact Except.ok.inj h
  · exact Except.ok.inj h
  · cases h

/-- That a value has a tag, and what it holds beside it. -/
inductive Tagged (tag : String) : Json → Json → Prop where
  | object (before after : List (String × Json)) (others : ∀ f ∈ before ++ after, f.1 ≠ "type") :
    Tagged tag (.obj (before ++ ("type", .str tag) :: after)) (.obj (before ++ after))
  | array (rest : List Json) : Tagged tag (.arr (.str tag :: rest)) (.arr rest)

/-- The tag is told apart from everything beside it. -/
theorem filter_tag {before after : List (String × Json)} {tag : String}
    (others : ∀ f ∈ before ++ after, f.1 ≠ "type") :
    (before ++ ("type", .str tag) :: after).filter (·.1 = "type") = [("type", .str tag)] ∧
      (before ++ ("type", .str tag) :: after).filter (·.1 ≠ "type") = before ++ after := by
  obtain ⟨hbefore, hafter⟩ := List.forall_mem_append.1 others
  have hnone (l : List (String × Json)) (h : ∀ f ∈ l, f.1 ≠ "type") :
      l.filter (·.1 = "type") = [] ∧ l.filter (·.1 ≠ "type") = l :=
    ⟨List.filter_eq_nil_iff.2 (by simpa using h), List.filter_eq_self.2 (by simpa using h)⟩
  simp only [List.filter_append, List.filter_cons, hnone before hbefore, hnone after hafter]
  exact ⟨rfl, rfl⟩

theorem tagged_eq_ok_iff {variants : String → Option (Decoder α)} {j : Json} {a : α} :
    tagged variants j = .ok a ↔ j.isWhole maxDepth = true ∧
      ∃ tag content d, Tagged tag j content ∧ variants tag = some d ∧ d content = .ok a := by
  constructor
  · intro h
    unfold tagged at h
    split at h
    · rename_i hwhole
      refine ⟨hwhole, ?_⟩
      split at h
      · split at h
        · rename_i name tag hone
          obtain ⟨before, after, rfl, hbefore, hname, hafter⟩ := List.filter_eq_cons_iff.1 hone
          obtain rfl : name = "type" := by simpa using hname
          have others : ∀ f ∈ before ++ after, f.1 ≠ "type" :=
            List.forall_mem_append.2 ⟨by simpa using hbefore,
              by simpa using List.filter_eq_nil_iff.1 hafter⟩
          cases hd : variants tag with
          | none => simp only [hd, reduceCtorEq] at h
          | some d =>
            simp only [hd, (filter_tag others).2] at h
            exact ⟨tag, _, d, .object before after others, hd, h⟩
        · cases h
      · rename_i tag rest
        cases hd : variants tag with
        | none => simp only [hd, reduceCtorEq] at h
        | some d =>
          simp only [hd] at h
          exact ⟨tag, _, d, .array rest, hd, h⟩
      · cases h
    · cases h
  · rintro ⟨hwhole, tag, content, d, htagged, hd, ha⟩
    cases htagged with
    | object before after others =>
      obtain ⟨hone, hrest⟩ := @filter_tag before after tag others
      simp only [tagged, hwhole, hone, hrest, hd, if_pos, ha]
    | array rest => simp only [tagged, hwhole, hd, if_pos, ha]

theorem tagged_of_tag {variants : String → Option (Decoder α)} {tag : String} {d : Decoder α}
    {fields : List (String × Json)} (htag : variants tag = some d)
    (hfields : ∀ f ∈ fields, f.1 ≠ "type") (whole : allFieldsWhole (maxDepth - 1) fields = true) :
    tagged variants (.obj (("type", .str tag) :: fields)) = d (.obj fields) := by
  have hwhole : isWhole maxDepth (.obj (("type", .str tag) :: fields)) = true := by
    simpa [isWhole, allFieldsWhole, maxDepth] using whole
  obtain ⟨htags, hothers⟩ := @filter_tag [] fields tag hfields
  simp only [List.nil_append] at htags hothers
  simp only [tagged, hwhole, htags, hothers, htag, ↓reduceIte]

end Decoder

end Switchyard.Json
