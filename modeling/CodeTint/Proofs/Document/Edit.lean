import CodeTint.Proofs.Document.Place

/-!
The four changes of a document. Each is done just where it makes sense, at whatever depth of the
tree: there is a place, and what fills it is replaced. In the tokens, one run is replaced by
another.
-/

set_option autoImplicit false
set_option relaxedAutoImplicit false

namespace CodeTint

def slice (text : String) (first last : Nat) : String :=
  String.ofList ((text.toList.drop first).take (last - first))

section Text

variable {text new : String} {first last : Nat}

private theorem length_slice (inside : last ≤ text.length) :
    (slice text first last).length = last - first := by
  rw [slice, String.length_ofList, List.length_take, List.length_drop, String.length_toList]
  omega

private theorem take_append_slice (ordered : first ≤ last) :
    text.toList.take first ++ (slice text first last).toList ++ text.toList.drop last =
      text.toList := by
  have rest : (text.toList.drop first).drop (last - first) = text.toList.drop last := by
    rw [List.drop_drop, Nat.add_sub_cancel' ordered]
  rw [slice, String.toList_ofList, List.append_assoc, ← rest, List.take_append_drop,
    List.take_append_drop]

private theorem length_spliceText (ordered : first ≤ last) (inside : last ≤ text.length) :
    (spliceText text first last new).length = first + new.length + (text.length - last) := by
  simp only [spliceText, String.length_ofList, List.length_append, List.length_take,
    List.length_drop, String.length_toList]
  omega

private theorem spliceText_spliceText (ordered : first ≤ last) (inside : last ≤ text.length) :
    spliceText (spliceText text first last new) first (first + new.length)
      (slice text first last) = text := by
  have front : (text.toList.take first).length = first := by
    rw [List.length_take, String.length_toList]
    omega
  have middle : (text.toList.take first ++ new.toList).length = first + new.length := by
    rw [List.length_append, front, String.length_toList]
  have kept : ((text.toList.take first ++ new.toList) ++ text.toList.drop last).take first =
      text.toList.take first := by
    rw [List.append_assoc, List.take_left' front]
  refine String.toList_inj.mp ?_
  rw [spliceText, String.toList_ofList, spliceText, String.toList_ofList, kept,
    List.drop_left' middle, take_append_slice ordered]

private theorem textTokens_spliceText (block : Opening) (ordered : first ≤ last)
    (inside : last ≤ text.length) :
    Spliced (first + 1) ((slice text first last).toList.map .char) (new.toList.map .char)
      (textTokens block text) (textTokens block (spliceText text first last new)) := by
  refine ⟨.opening block :: (text.toList.take first).map .char,
    (text.toList.drop last).map .char ++ [.closing], ?_, ?_, ?_⟩
  · rw [List.length_cons, List.length_map, List.length_take, String.length_toList]
    omega
  · calc textTokens block text
        = .opening block :: ((text.toList.take first ++ (slice text first last).toList ++
            text.toList.drop last).map .char ++ [.closing]) := by
          rw [take_append_slice ordered, textTokens]
      _ = _ := by simp only [List.map_append, List.append_assoc, List.cons_append]
  · simp only [textTokens, spliceText, String.toList_ofList, List.map_append, List.append_assoc,
      List.cons_append]

end Text

namespace Node

def mapText? (f : String → String) : Node → Option Node
  | paragraph text => some (paragraph (f text))
  | heading level text => some (heading level (f text))
  | codeBlock attrs text => some (codeBlock attrs (f text))
  | _ => none

private theorem exists_text_of_mapText? {f : String → String} {n m : Node}
    (h : n.mapText? f = some m) :
    ∃ block text, n.tokens = textTokens block text ∧ m.tokens = textTokens block (f text) ∧
      n.size = text.length + 2 ∧ m.size = (f text).length + 2 ∧
      ∀ back : String → String, back (f text) = text → m.mapText? back = some n := by
  cases n with
  | paragraph text | heading level text | codeBlock attrs text =>
    obtain rfl := Option.some.inj h
    refine ⟨_, text, rfl, rfl, rfl, rfl, fun back undone => ?_⟩
    rw [mapText?, undone]
  | blockquote _ | horizontalRule => cases h

/-- A text block that begins at `pos`, and what it becomes if some text inside it is replaced. -/
structure Retyped (start stop : Nat) (new : String) (pos : Nat) (old put : Node) : Prop where
  first : pos < start
  last : stop < pos + old.size
  put : old.mapText? (fun text => spliceText text (start - pos - 1) (stop - pos - 1) new) = some put

variable {at_ pos : Nat}

section Replace

variable {start stop : Nat} {new : String}

private theorem replaceText?_of_le {n : Node} (ordered : start ≤ stop) (le : pos + n.size ≤ start) :
    replaceText? start stop new n pos = none := by
  have outside : ¬(decide (pos < start) && decide (stop < pos + n.size)) = true := by
    rw [Bool.and_eq_true, decide_eq_true_eq, decide_eq_true_eq]
    omega
  cases n <;> exact if_neg outside

private theorem Retyped.replaceText? {old put : Node} (h : Retyped start stop new pos old put) :
    replaceText? start stop new old pos = some put := by
  have within : (decide (pos < start) && decide (stop < pos + old.size)) = true := by
    rw [Bool.and_eq_true, decide_eq_true_eq, decide_eq_true_eq]
    exact ⟨h.first, h.last⟩
  rw [← h.put]
  cases old with
  | blockquote _ | horizontalRule => exact absurd h.put (by simp [mapText?])
  | _ => exact if_pos within

private theorem replaceTextAll?_fill {old put : Node} (ordered : start ≤ stop) (p : Place)
    (retyped : Retyped start stop new (pos + p.pos) old put) :
    replaceTextAll? start stop new (p.fill [old]) pos = some (p.fill [put]) := by
  induction p generalizing pos with
  | here rest =>
    have own : Node.replaceText? start stop new old pos = some put := retyped.replaceText?
    rw [Place.fill, List.singleton_append, replaceTextAll?, own]
    rfl
  | behind first later ih =>
    rw [Place.pos, ← Nat.add_assoc] at retyped
    have before := retyped.first
    rw [Place.fill, replaceTextAll?, replaceText?_of_le ordered (by omega)]
    simp only [ih retyped]
    rfl
  | inside inner rest ih =>
    rw [Place.pos, ← Nat.add_assoc] at retyped
    -- the whole range is inside the block quote, because it is inside the text block in it
    have first := retyped.first
    have last := retyped.last
    have stop_le := inner.stop_le_sizes [old]
    have within : (decide (pos < start) &&
        decide (stop < pos + (blockquote (inner.fill [old])).size)) = true := by
      rw [Bool.and_eq_true, decide_eq_true_eq, decide_eq_true_eq, size]
      simp only [sizes] at stop_le
      omega
    rw [Place.fill, replaceTextAll?, Node.replaceText?, if_pos within]
    simp only [ih retyped]
    rfl

mutual

private theorem exists_place_of_replaceText? : ∀ (n : Node) (pos : Nat) (m : Node),
    replaceText? start stop new n pos = some m → Retyped start stop new pos n m ∨
      ∃ (p : Place) (old put : Node), Retyped start stop new (pos + (1 + p.pos)) old put ∧
        n = blockquote (p.fill [old]) ∧ m = blockquote (p.fill [put])
  | paragraph _, pos, m, h | heading _ _, pos, m, h | codeBlock _ _, pos, m, h => by
      simp only [replaceText?, Bool.and_eq_true, decide_eq_true_eq,
        Option.ite_none_right_eq_some] at h
      exact .inl ⟨h.1.1, h.1.2, h.2⟩
  | blockquote content, pos, m, h => by
      simp only [replaceText?, Option.ite_none_right_eq_some, Option.map_eq_some_iff] at h
      obtain ⟨-, changed, found, rfl⟩ := h
      obtain ⟨p, old, put, retyped, rfl, rfl⟩ :=
        exists_place_of_replaceTextAll? content (pos + 1) changed found
      exact .inr ⟨p, old, put, by rwa [← Nat.add_assoc], rfl, rfl⟩
  | horizontalRule, pos, m, h => by simp [replaceText?] at h

private theorem exists_place_of_replaceTextAll? : ∀ (ns : List Node) (pos : Nat) (ms : List Node),
    replaceTextAll? start stop new ns pos = some ms →
      ∃ (p : Place) (old put : Node), Retyped start stop new (pos + p.pos) old put ∧
        ns = p.fill [old] ∧ ms = p.fill [put]
  | [], pos, ms, h => by simp [replaceTextAll?] at h
  | n :: rest, pos, ms, h => by
      simp only [replaceTextAll?] at h
      split at h
      · rename_i m found
        obtain rfl := Option.some.inj h
        rcases exists_place_of_replaceText? n pos m found with
          retyped | ⟨p, old, put, retyped, rfl, rfl⟩
        · exact ⟨.here rest, n, m, retyped, rfl, rfl⟩
        · exact ⟨.inside p rest, old, put, retyped, rfl, rfl⟩
      · obtain ⟨changed, found, rfl⟩ := Option.map_eq_some_iff.mp h
        obtain ⟨p, old, put, retyped, rfl, rfl⟩ :=
          exists_place_of_replaceTextAll? rest (pos + n.size) changed found
        exact ⟨.behind n p, old, put, by rwa [Place.pos, ← Nat.add_assoc], rfl, rfl⟩

end

/-- What was there before some text is replaced: in the tokens it is one run, and put back it makes
the text block what it was. -/
theorem Retyped.exists_gone {old put : Node} (ordered : start ≤ stop) (p : Place)
    (h : Retyped start stop new p.pos old put) : ∃ gone : String, gone.length = stop - start ∧
      Spliced start (gone.toList.map .char) (new.toList.map .char) (tokensAll (p.fill [old]))
        (tokensAll (p.fill [put])) ∧
      Retyped start (start + new.length) gone p.pos put old := by
  have above := h.first
  have below := h.last
  obtain ⟨block, text, before, after, size, size', back⟩ := exists_text_of_mapText? h.put
  -- counted in characters of the text, from `first` up to `last` is replaced
  obtain ⟨first, place⟩ : ∃ first, start = p.pos + (first + 1) := ⟨start - p.pos - 1, by omega⟩
  obtain ⟨last, place'⟩ : ∃ last, stop = p.pos + (last + 1) := ⟨stop - p.pos - 1, by omega⟩
  have firstEq : start - p.pos - 1 = first := by omega
  have lastEq : stop - p.pos - 1 = last := by omega
  have inside : last ≤ text.length := by omega
  have ordered' : first ≤ last := by omega
  have length : (slice text first last).length = last - first := length_slice inside
  rw [firstEq, lastEq] at after size' back
  refine ⟨slice text first last, by omega, ?_, ?_, ?_, back _ ?_⟩
  · have outer := p.spliced_fill [old] [put]
    rw [tokensAll_singleton, tokensAll_singleton, before, after] at outer
    rw [place]
    exact outer.nested (textTokens_spliceText block ordered' inside)
  · exact above
  · rw [size', length_spliceText ordered' inside]
    omega
  · have stopEq : start + new.length - p.pos - 1 = first + new.length := by omega
    rw [firstEq, stopEq]
    exact spliceText_spliceText ordered' inside

end Replace

section Insert

variable {new : Node}

private theorem insertInside?_of_le {n : Node} (le : pos + n.size ≤ at_) :
    insertInside? at_ new n pos = none := by
  cases n with
  | blockquote content => rw [insertInside?, if_neg (Place.passes le)]
  | _ => rfl

private theorem insertAll?_fill (p : Place) (place : at_ = pos + p.pos) :
    insertAll? at_ new (p.fill []) pos = some (p.fill [new]) := by
  induction p generalizing pos with
  | here rest => cases rest <;> exact if_pos place.symm
  | behind first later ih =>
    have long := first.size_pos
    rw [Place.pos] at place
    rw [Place.fill, insertAll?, if_neg (by omega), insertInside?_of_le (by omega)]
    simp only [ih (show at_ = pos + first.size + later.pos by omega)]
    rfl
  | inside inner rest ih =>
    rw [Place.pos] at place
    rw [Place.fill, insertAll?, if_neg (by omega), insertInside?, if_pos (inner.enters [] place),
      ih (by omega)]
    rfl

mutual

private theorem exists_place_of_insertInside? : ∀ (n : Node) (pos : Nat) (m : Node),
    insertInside? at_ new n pos = some m →
      ∃ p : Place, at_ = pos + (1 + p.pos) ∧ n = blockquote (p.fill []) ∧
        m = blockquote (p.fill [new])
  | paragraph _, pos, m, h | heading _ _, pos, m, h | codeBlock _ _, pos, m, h
  | horizontalRule, pos, m, h => by simp [insertInside?] at h
  | blockquote content, pos, m, h => by
      simp only [insertInside?, Option.ite_none_right_eq_some, Option.map_eq_some_iff] at h
      obtain ⟨-, changed, found, rfl⟩ := h
      obtain ⟨p, place, rfl, rfl⟩ := exists_place_of_insertAll? content (pos + 1) changed found
      exact ⟨p, by omega, rfl, rfl⟩

private theorem exists_place_of_insertAll? : ∀ (ns : List Node) (pos : Nat) (ms : List Node),
    insertAll? at_ new ns pos = some ms →
      ∃ p : Place, at_ = pos + p.pos ∧ ns = p.fill [] ∧ ms = p.fill [new]
  | [], pos, ms, h => by
      simp only [insertAll?, Option.ite_none_right_eq_some, Option.some.injEq] at h
      obtain ⟨rfl, rfl⟩ := h
      exact ⟨.here [], rfl, rfl, rfl⟩
  | n :: rest, pos, ms, h => by
      simp only [insertAll?] at h
      split at h
      · rename_i place
        obtain rfl := Option.some.inj h
        exact ⟨.here (n :: rest), place.symm, rfl, rfl⟩
      · split at h
        · rename_i m found
          obtain rfl := Option.some.inj h
          obtain ⟨p, place, rfl, rfl⟩ := exists_place_of_insertInside? n pos m found
          exact ⟨.inside p rest, place, rfl, rfl⟩
        · obtain ⟨changed, found, rfl⟩ := Option.map_eq_some_iff.mp h
          obtain ⟨p, place, rfl, rfl⟩ :=
            exists_place_of_insertAll? rest (pos + n.size) changed found
          exact ⟨.behind n p, by rw [Place.pos]; omega, rfl, rfl⟩

end

private theorem insertAll?_eq_some_iff {ns ms : List Node} : insertAll? at_ new ns pos = some ms ↔
    ∃ p : Place, at_ = pos + p.pos ∧ ns = p.fill [] ∧ ms = p.fill [new] := by
  constructor
  · exact exists_place_of_insertAll? ns pos ms
  · rintro ⟨p, place, rfl, rfl⟩
    exact insertAll?_fill p place

end Insert

section Delete

private theorem deleteInside?_of_le {n : Node} (le : pos + n.size ≤ at_) :
    deleteInside? at_ n pos = none := by
  cases n with
  | blockquote content => rw [deleteInside?, if_neg (Place.passes le)]
  | _ => rfl

private theorem deleteAll?_fill (gone : Node) (p : Place) (place : at_ = pos + p.pos) :
    deleteAll? at_ (p.fill [gone]) pos = some (p.fill [], gone) := by
  induction p generalizing pos with
  | here rest => exact if_pos place.symm
  | behind first later ih =>
    have long := first.size_pos
    rw [Place.pos] at place
    rw [Place.fill, deleteAll?, if_neg (by omega), deleteInside?_of_le (by omega)]
    simp only [ih (show at_ = pos + first.size + later.pos by omega)]
    rfl
  | inside inner rest ih =>
    rw [Place.pos] at place
    rw [Place.fill, deleteAll?, if_neg (by omega), deleteInside?,
      if_pos (inner.enters [gone] place), ih (by omega)]
    rfl

mutual

private theorem exists_place_of_deleteInside? : ∀ (n : Node) (pos : Nat) (m gone : Node),
    deleteInside? at_ n pos = some (m, gone) →
      ∃ p : Place, at_ = pos + (1 + p.pos) ∧ n = blockquote (p.fill [gone]) ∧
        m = blockquote (p.fill [])
  | paragraph _, pos, m, gone, h | heading _ _, pos, m, gone, h | codeBlock _ _, pos, m, gone, h
  | horizontalRule, pos, m, gone, h => by simp [deleteInside?] at h
  | blockquote content, pos, m, gone, h => by
      simp only [deleteInside?, Option.ite_none_right_eq_some, Option.map_eq_some_iff,
        Prod.mk.injEq, Prod.exists] at h
      obtain ⟨-, changed, _, found, rfl, rfl⟩ := h
      obtain ⟨p, place, rfl, rfl⟩ := exists_place_of_deleteAll? content (pos + 1) changed _ found
      exact ⟨p, by omega, rfl, rfl⟩

private theorem exists_place_of_deleteAll? :
    ∀ (ns : List Node) (pos : Nat) (ms : List Node) (gone : Node),
    deleteAll? at_ ns pos = some (ms, gone) →
      ∃ p : Place, at_ = pos + p.pos ∧ ns = p.fill [gone] ∧ ms = p.fill []
  | [], pos, ms, gone, h => by simp [deleteAll?] at h
  | n :: rest, pos, ms, gone, h => by
      simp only [deleteAll?] at h
      split at h
      · rename_i place
        obtain ⟨rfl, rfl⟩ := Prod.mk.inj (Option.some.inj h)
        exact ⟨.here rest, place.symm, rfl, rfl⟩
      · split at h
        · rename_i m _ found
          obtain ⟨rfl, rfl⟩ := Prod.mk.inj (Option.some.inj h)
          obtain ⟨p, place, rfl, rfl⟩ := exists_place_of_deleteInside? n pos m _ found
          exact ⟨.inside p rest, place, rfl, rfl⟩
        · simp only [Option.map_eq_some_iff, Prod.mk.injEq, Prod.exists] at h
          obtain ⟨changed, _, found, rfl, rfl⟩ := h
          obtain ⟨p, place, rfl, rfl⟩ :=
            exists_place_of_deleteAll? rest (pos + n.size) changed _ found
          exact ⟨.behind n p, by rw [Place.pos]; omega, rfl, rfl⟩

end

private theorem deleteAll?_eq_some_iff {ns ms : List Node} {gone : Node} :
    deleteAll? at_ ns pos = some (ms, gone) ↔
      ∃ p : Place, at_ = pos + p.pos ∧ ns = p.fill [gone] ∧ ms = p.fill [] := by
  constructor
  · exact exists_place_of_deleteAll? ns pos ms gone
  · rintro ⟨p, place, rfl, rfl⟩
    exact deleteAll?_fill gone p place

end Delete

section Update

variable {f : Node → Option Node}

private theorem updateAt?_of_le {n : Node} (le : pos + n.size ≤ at_) :
    updateAt? f at_ n pos = none := by
  have long := n.size_pos
  cases n with
  | blockquote content => rw [updateAt?, if_neg (by omega), if_neg (Place.passes le)]
  | _ => exact if_neg (by omega)

private theorem updateAtAll?_fill {old new : Node} (written : f old = some new) (p : Place)
    (place : at_ = pos + p.pos) : updateAtAll? f at_ (p.fill [old]) pos = some (p.fill [new]) := by
  induction p generalizing pos with
  | here rest =>
    have own : updateAt? f at_ old pos = some new := by
      rw [← written]
      cases old <;> exact if_pos place.symm
    rw [Place.fill, List.singleton_append, updateAtAll?, own]
    rfl
  | behind first later ih =>
    rw [Place.pos] at place
    rw [Place.fill, updateAtAll?, updateAt?_of_le (by omega)]
    simp only [ih (show at_ = pos + first.size + later.pos by omega)]
    rfl
  | inside inner rest ih =>
    rw [Place.pos] at place
    rw [Place.fill, updateAtAll?, updateAt?, if_neg (by omega), if_pos (inner.enters [old] place),
      ih (by omega)]
    rfl

mutual

private theorem exists_place_of_updateAt? : ∀ (n : Node) (pos : Nat) (m : Node),
    updateAt? f at_ n pos = some m → at_ = pos ∧ f n = some m ∨
      ∃ (p : Place) (old new : Node), at_ = pos + (1 + p.pos) ∧ f old = some new ∧
        n = blockquote (p.fill [old]) ∧ m = blockquote (p.fill [new])
  | paragraph _, pos, m, h | heading _ _, pos, m, h | codeBlock _ _, pos, m, h
  | horizontalRule, pos, m, h => by
      simp only [updateAt?, Option.ite_none_right_eq_some] at h
      exact .inl ⟨h.1.symm, h.2⟩
  | blockquote content, pos, m, h => by
      simp only [updateAt?] at h
      split at h
      · rename_i place
        exact .inl ⟨place.symm, h⟩
      · simp only [Option.ite_none_right_eq_some, Option.map_eq_some_iff] at h
        obtain ⟨-, changed, found, rfl⟩ := h
        obtain ⟨p, old, new, place, written, rfl, rfl⟩ :=
          exists_place_of_updateAtAll? content (pos + 1) changed found
        exact .inr ⟨p, old, new, by omega, written, rfl, rfl⟩

private theorem exists_place_of_updateAtAll? : ∀ (ns : List Node) (pos : Nat) (ms : List Node),
    updateAtAll? f at_ ns pos = some ms →
      ∃ (p : Place) (old new : Node), at_ = pos + p.pos ∧ f old = some new ∧
        ns = p.fill [old] ∧ ms = p.fill [new]
  | [], pos, ms, h => by simp [updateAtAll?] at h
  | n :: rest, pos, ms, h => by
      simp only [updateAtAll?] at h
      split at h
      · rename_i m found
        obtain rfl := Option.some.inj h
        rcases exists_place_of_updateAt? n pos m found with
          ⟨place, written⟩ | ⟨p, old, new, place, written, rfl, rfl⟩
        · exact ⟨.here rest, n, m, place, written, rfl, rfl⟩
        · exact ⟨.inside p rest, old, new, place, written, rfl, rfl⟩
      · obtain ⟨changed, found, rfl⟩ := Option.map_eq_some_iff.mp h
        obtain ⟨p, old, new, place, written, rfl, rfl⟩ :=
          exists_place_of_updateAtAll? rest (pos + n.size) changed found
        exact ⟨.behind n p, old, new, by rw [Place.pos]; omega, written, rfl, rfl⟩

end

end Update

end Node

namespace Document

variable {d : Document} {content : List Node}

theorem replaceText_eq_ok_iff {start stop : Nat} {new : String} :
    d.replaceText start stop new = .ok content ↔ start ≤ stop ∧
      ∃ (p : Place) (old put : Node), Node.Retyped start stop new p.pos old put ∧
        d.content = p.fill [old] ∧ content = p.fill [put] := by
  constructor
  · intro done
    simp only [replaceText, Bool.or_eq_true, decide_eq_true_eq] at done
    split at done
    · cases done
    · rename_i inside
      split at done
      · rename_i found
        obtain rfl := Except.ok.inj done
        obtain ⟨p, old, put, retyped, before, after⟩ :=
          Node.exists_place_of_replaceTextAll? d.content 0 _ found
        rw [Nat.zero_add] at retyped
        exact ⟨by omega, p, old, put, retyped, before, after⟩
      · cases done
  · rintro ⟨ordered, p, old, put, retyped, before, rfl⟩
    have last := retyped.last
    have size : p.pos + Node.sizes [old] ≤ d.size := by
      rw [Document.size, before]
      exact p.stop_le_sizes [old]
    simp only [Node.sizes] at size
    rw [← Nat.zero_add p.pos] at retyped
    have found := Node.replaceTextAll?_fill ordered p retyped
    rw [replaceText, if_neg, before, found]
    simp only [Bool.or_eq_true, decide_eq_true_eq]
    omega

theorem insertNode_eq_ok_iff {pos : Nat} {n : Node} : d.insertNode pos n = .ok content ↔
    ∃ p : Place, pos = p.pos ∧ d.content = p.fill [] ∧ content = p.fill [n] := by
  have walk : Node.insertAll? pos n d.content 0 = some content ↔ _ := Node.insertAll?_eq_some_iff
  simp only [Nat.zero_add] at walk
  rw [← walk, insertNode]
  cases Node.insertAll? pos n d.content 0 <;> simp

theorem deleteNode_eq_ok_iff {pos : Nat} {gone : Node} :
    d.deleteNode pos = .ok (content, gone) ↔
      ∃ p : Place, pos = p.pos ∧ d.content = p.fill [gone] ∧ content = p.fill [] := by
  have walk : Node.deleteAll? pos d.content 0 = some (content, gone) ↔ _ :=
    Node.deleteAll?_eq_some_iff
  simp only [Nat.zero_add] at walk
  rw [← walk, deleteNode]
  cases Node.deleteAll? pos d.content 0 <;> simp

theorem setAttr_eq_ok_iff {pos : Nat} {attr : CodeAttr} {value : Option String} :
    d.setAttr pos attr value = .ok content ↔ ∃ (p : Place) (attrs : CodeAttrs) (text : String),
      pos = p.pos ∧ d.content = p.fill [.codeBlock attrs text] ∧
        content = p.fill [.codeBlock (attrs.set attr value) text] := by
  constructor
  · intro done
    simp only [setAttr] at done
    split at done
    · cases done
    · split at done
      · rename_i found
        obtain rfl := Except.ok.inj done
        obtain ⟨p, old, new, place, written, before, after⟩ :=
          Node.exists_place_of_updateAtAll? d.content 0 _ found
        rw [Nat.zero_add] at place
        cases old with
        | codeBlock attrs text =>
          obtain rfl := Option.some.inj written
          exact ⟨p, attrs, text, place, before, after⟩
        | _ => cases written
      · cases done
  · rintro ⟨p, attrs, text, rfl, before, rfl⟩
    have there : d.nodeAt p.pos = some (.codeBlock attrs text) :=
      nodeAt_eq_some_iff.mpr (mem_nodes_iff.mpr ⟨p, rfl, before⟩)
    have written : Node.setAttr? attr value (.codeBlock attrs text) =
      some (.codeBlock (attrs.set attr value) text) := rfl
    have found := Node.updateAtAll?_fill written p (Nat.zero_add p.pos).symm
    simp only [setAttr, there, before, found]

theorem replaceText_spliced {start stop : Nat} {new : String}
    (h : d.replaceText start stop new = .ok content) :
    start ≤ stop ∧ ∃ gone : List Char, gone.length = stop - start ∧
      Spliced start (gone.map .char) (new.toList.map .char) d.tokens (Node.tokensAll content) := by
  obtain ⟨ordered, p, old, put, retyped, before, rfl⟩ := replaceText_eq_ok_iff.mp h
  obtain ⟨gone, length, spliced, -⟩ := retyped.exists_gone ordered p
  rw [tokens, before]
  exact ⟨ordered, gone.toList, by rw [String.length_toList, length], spliced⟩

theorem insertNode_spliced {pos : Nat} {n : Node} (h : d.insertNode pos n = .ok content) :
    Spliced pos [] n.tokens d.tokens (Node.tokensAll content) := by
  obtain ⟨p, rfl, before, rfl⟩ := insertNode_eq_ok_iff.mp h
  rw [tokens, before, ← Node.tokensAll_singleton n]
  exact p.spliced_fill [] [n]

theorem deleteNode_spliced {pos : Nat} {gone : Node} (h : d.deleteNode pos = .ok (content, gone)) :
    Spliced pos gone.tokens [] d.tokens (Node.tokensAll content) := by
  obtain ⟨p, rfl, before, rfl⟩ := deleteNode_eq_ok_iff.mp h
  rw [tokens, before, ← Node.tokensAll_singleton gone]
  exact p.spliced_fill [gone] []

theorem setAttr_spliced {pos : Nat} {attr : CodeAttr} {value : Option String}
    (h : d.setAttr pos attr value = .ok content) :
    ∃ attrs : CodeAttrs, Spliced pos [.opening (.codeBlock attrs)]
      [.opening (.codeBlock (attrs.set attr value))] d.tokens (Node.tokensAll content) := by
  obtain ⟨p, attrs, text, rfl, before, rfl⟩ := setAttr_eq_ok_iff.mp h
  have spliced := p.spliced_fill [.codeBlock attrs text] [.codeBlock (attrs.set attr value) text]
  rw [Node.tokensAll_singleton, Node.tokensAll_singleton] at spliced
  rw [tokens, before]
  exact ⟨attrs, spliced.head⟩

end Document

end CodeTint
