import RmqttThings.Paging.Slices

namespace Paging

variable {α κ : Type} [LinearOrder κ] (key : α → κ)

-- `ORDER BY key DESC`.
abbrev Descends (row next : α) : Prop := key next ≤ key row

instance : Std.Total (Descends key) := ⟨fun row next => le_total (key next) (key row)⟩

instance : IsTrans α (Descends key) := ⟨fun _ _ _ h h' => le_trans h' h⟩

-- How many rows stand before every row with this key, and how many stand up to the last of them.
def before (rows : List α) (tie : κ) : Nat := rows.countP fun row => tie < key row

def upto (rows : List α) (tie : κ) : Nat := rows.countP fun row => tie ≤ key row

-- The rows that share a key are all on one page.
def Unsplit (rows : List α) (size : Nat) : Prop :=
  ∀ row ∈ rows, before key rows (key row) / size = (upto key rows (key row) - 1) / size

instance (rows : List α) (size : Nat) : Decidable (Unsplit key rows size) :=
  inferInstanceAs (Decidable (∀ row ∈ rows, _))

variable {key} {rows listing : List α} {size : Nat}

-- A row may stand anywhere among those that share its key, and nowhere else.
theorem Arranges.place (h : Arranges (Descends key) rows listing) {place : Nat} {row : α}
    (hplace : listing[place]? = some row) :
    before key rows (key row) ≤ place ∧ place < upto key rows (key row) := by
  obtain ⟨hlt, hget⟩ := List.getElem?_eq_some_iff.mp hplace
  have hsplit : listing = listing.take place ++ row :: listing.drop (place + 1) := by
    rw [← hget, ← List.drop_eq_getElem_cons hlt, List.take_append_drop]
  have hlength : (listing.take place).length = place := List.length_take_of_le (Nat.le_of_lt hlt)
  have hsorted := h.sorted
  rw [hsplit, List.pairwise_append] at hsorted
  obtain ⟨-, hafter, hover⟩ := hsorted
  constructor
  · have hnone : (row :: listing.drop (place + 1)).countP (fun other => key row < key other) =
        0 := by
      rw [List.countP_eq_zero]
      intro other hother
      rcases List.mem_cons.mp hother with rfl | hother
      · simp
      · simpa using (List.pairwise_cons.mp hafter).1 other hother
    unfold before
    rw [← h.perm.countP_eq, hsplit, List.countP_append, hnone, Nat.add_zero]
    exact List.countP_le_length.trans (Nat.le_of_eq hlength)
  · have hall : (listing.take place).countP (fun other => key row ≤ key other) = place := by
      rw [← hlength, List.length_take_of_le (Nat.le_of_lt hlt), List.countP_eq_length.mpr, hlength]
      intro other hother
      simpa using hover other hother row List.mem_cons_self
    unfold upto
    rw [← h.perm.countP_eq, hsplit, List.countP_append, hall, List.countP_cons_of_pos (by simp)]
    omega

-- Where no tie is split, a row is on the page of the first place that its key can have.
theorem mem_slice_of_unsplit (hsize : 0 < size) (h : Unsplit key rows size)
    (hlisting : Arranges (Descends key) rows listing) {page : Nat} {row : α} :
    row ∈ slice listing size page ↔ row ∈ rows ∧ before key rows (key row) / size = page := by
  have hpage {place : Nat} (hrow : row ∈ rows) (hplace : listing[place]? = some row) :
      place / size = before key rows (key row) / size := by
    obtain ⟨hlo, hhi⟩ := hlisting.place hplace
    have hfirst := Nat.div_le_div_right (c := size) hlo
    have hlast : place / size ≤ (upto key rows (key row) - 1) / size :=
      Nat.div_le_div_right (by omega)
    rw [← h row hrow] at hlast
    omega
  rw [mem_slice_iff hsize]
  constructor
  · rintro ⟨place, hplace, rfl⟩
    have hrow := hlisting.perm.mem_iff.mp (List.mem_of_getElem? hplace)
    exact ⟨hrow, (hpage hrow hplace).symm⟩
  · rintro ⟨hrow, rfl⟩
    obtain ⟨place, hplace⟩ := List.mem_iff_getElem?.mp (hlisting.perm.mem_iff.mpr hrow)
    exact ⟨place, hplace, hpage hrow hplace⟩

theorem before_lt_length {row : α} (hrow : row ∈ rows) :
    before key rows (key row) < rows.length := by
  refine lt_of_le_of_ne List.countP_le_length fun hall => ?_
  have hself := List.countP_eq_length.mp hall row hrow
  simp at hself

theorem pages_perm_of_unsplit (hsize : 0 < size) (hnodup : rows.Nodup) (h : Unsplit key rows size)
    (orders : Nat → List α) (horders : ∀ page, Arranges (Descends key) rows (orders page)) :
    (pages orders size (pageCount rows.length size)).Perm rows := by
  rw [List.perm_ext_iff_of_nodup _ hnodup]
  · intro row
    rw [mem_pages]
    constructor
    · rintro ⟨page, -, hmem⟩
      exact ((mem_slice_of_unsplit hsize h (horders page)).mp hmem).1
    · intro hrow
      exact ⟨_, lt_pageCount hsize (before_lt_length hrow),
        (mem_slice_of_unsplit hsize h (horders _)).mpr ⟨hrow, rfl⟩⟩
  · rw [pages, List.nodup_flatMap]
    constructor
    · intro page _
      have hlisting := (horders page).perm.nodup_iff.mpr hnodup
      exact (hlisting.sublist (List.drop_sublist _ _)).sublist (List.take_sublist _ _)
    · refine List.nodup_range.imp fun {page other} hne => ?_
      intro row hpage hother
      have hfirst := (mem_slice_of_unsplit hsize h (horders page)).mp hpage
      have hsecond := (mem_slice_of_unsplit hsize h (horders other)).mp hother
      exact hne (hfirst.2.symm.trans hsecond.2)

section Choices

theorem upto_eq (rows : List α) (tie : κ) :
    upto key rows tie = before key rows tie + (rows.filter fun row => key row = tie).length := by
  induction rows with
  | nil => rfl
  | cons row rows ih =>
      simp only [upto, before] at ih ⊢
      simp only [List.countP_cons, List.filter_cons, decide_eq_true_eq, ih]
      rcases lt_trichotomy tie (key row) with hlt | heq | hgt
      · simp [hlt, hlt.le, hlt.ne']
        omega
      · simp [heq]
        omega
      · simp [hgt.not_ge, hgt.not_gt, hgt.ne]

theorem above_same_below_perm (rows : List α) (tie : κ) :
    ((rows.filter fun row => tie < key row) ++
      ((rows.filter fun row => key row = tie) ++ rows.filter fun row => key row < tie)).Perm
        rows := by
  have hrest : ((rows.filter fun row => key row = tie) ++ rows.filter fun row => key row < tie).Perm
      (rows.filter fun row => !decide (tie < key row)) := by
    have hsplit := List.filter_append_perm (fun row => decide (key row = tie))
      (rows.filter fun row => !decide (tie < key row))
    rw [List.filter_filter, List.filter_filter] at hsplit
    refine (List.Perm.of_eq ?_).trans hsplit
    congr 1
    · apply List.filter_congr
      intro row _
      by_cases heq : key row = tie
      · simp [heq]
      · simp [heq]
    · apply List.filter_congr
      intro row _
      rcases lt_trichotomy tie (key row) with hlt | heq | hgt
      · simp [hlt, hlt.not_gt]
      · simp [heq]
      · simp [hgt, hgt.not_gt, hgt.ne]
  exact (hrest.append_left _).trans (List.filter_append_perm _ rows)

-- The rows that share a key, in an order of one's own.
theorem exists_arranges {tie : κ} {ties : List α}
    (hties : ties.Perm (rows.filter fun row => key row = tie)) :
    ∃ front back, Arranges (Descends key) rows (front ++ (ties ++ back)) ∧
      front.length = before key rows tie := by
  have hfront (row : α) :
      row ∈ (rows.filter fun row => tie < key row).insertionSort (Descends key) ↔
      row ∈ rows ∧ tie < key row := by
    simp [List.mem_insertionSort]
  have hback (row : α) : row ∈ (rows.filter fun row => key row < tie).insertionSort (Descends key) ↔
      row ∈ rows ∧ key row < tie := by
    simp [List.mem_insertionSort]
  have hmid (row : α) (hrow : row ∈ ties) : key row = tie := by
    simpa using (List.mem_filter.mp (hties.mem_iff.mp hrow)).2
  refine ⟨(rows.filter fun row => tie < key row).insertionSort (Descends key),
    (rows.filter fun row => key row < tie).insertionSort (Descends key), ⟨?_, ?_⟩, ?_⟩
  · have hrest := hties.append (List.perm_insertionSort (Descends key) (rows.filter fun row =>
        key row < tie))
    exact ((List.perm_insertionSort _ _).append hrest).trans (above_same_below_perm rows tie)
  · rw [List.pairwise_append, List.pairwise_append]
    refine ⟨List.pairwise_insertionSort _ _, ⟨?_, List.pairwise_insertionSort _ _, ?_⟩, ?_⟩
    · exact List.pairwise_of_forall_mem_list fun row hrow next hnext => (hmid next hnext).trans_le
        (hmid row hrow).ge
    · intro row hrow next hnext
      exact ((hback next).mp hnext).2.le.trans_eq (hmid row hrow).symm
    · intro row hrow next hnext
      have hlt := ((hfront row).mp hrow).2
      rcases List.mem_append.mp hnext with hnext | hnext
      · exact (hmid next hnext).trans_le hlt.le
      · exact ((hback next).mp hnext).2.le.trans hlt.le
  · rw [List.length_insertionSort, before, List.countP_eq_length_filter]

-- A row may come first of its key, and it may come last.
theorem exists_first_last (key : α → κ) {row : α} (hrow : row ∈ rows) :
    (∃ listing, Arranges (Descends key) rows listing ∧ listing[before key rows (key row)]? =
      some row) ∧
      ∃ listing, Arranges (Descends key) rows listing ∧ listing[upto key rows (key row) - 1]? =
        some row := by
  have hmem : row ∈ rows.filter fun other => key other = key row := by simp [hrow]
  obtain ⟨left, right, hsplit⟩ := List.append_of_mem hmem
  constructor
  · have hties : (row :: (left ++ right)).Perm (rows.filter fun other => key other = key row) := by
      rw [hsplit]
      exact List.perm_middle.symm
    obtain ⟨front, back, harranges, hlength⟩ := exists_arranges hties
    refine ⟨_, harranges, ?_⟩
    rw [← hlength]
    simp
  · have hties : ((left ++ right) ++ [row]).Perm (rows.filter fun other => key other =
        key row) := by
      rw [hsplit]
      exact (List.perm_append_singleton _ _).trans List.perm_middle.symm
    obtain ⟨front, back, harranges, hlength⟩ := exists_arranges hties
    refine ⟨_, harranges, ?_⟩
    have hplace : upto key rows (key row) - 1 = (front ++ (left ++ right)).length := by
      rw [upto_eq, hsplit, ← hlength]
      simp only [List.length_append, List.length_cons]
      omega
    have hlisting : front ++ (left ++ right ++ [row] ++ back) = (front ++ (left ++ right)) ++
        (row :: back) := by simp
    rw [hplace, hlisting, List.getElem?_append_right (Nat.le_refl _), Nat.sub_self,
      List.getElem?_cons_zero]

end Choices

-- A row of a split tie can be shown on two pages.
theorem unsplit_of_pages_perm (hsize : 0 < size) (hnodup : rows.Nodup)
    (h : ∀ orders : Nat → List α, (∀ page, Arranges (Descends key) rows (orders page)) →
      (pages orders size (pageCount rows.length size)).Perm rows) : Unsplit key rows size := by
  intro row hrow
  by_contra hne
  obtain ⟨⟨first, hfirst, hstart⟩, last, hlast, hend⟩ := exists_first_last key hrow
  let orders (page : Nat) := if page = before key rows (key row) / size then first else last
  have hboth := h orders (by
    intro page
    by_cases hpage : page = before key rows (key row) / size
    · simpa only [orders, if_pos hpage] using hfirst
    · simpa only [orders, if_neg hpage] using hlast)
  have hlo : before key rows (key row) / size < pageCount rows.length size :=
    lt_pageCount hsize (before_lt_length hrow)
  have hhi : (upto key rows (key row) - 1) / size < pageCount rows.length size := by
    have hplace := (List.getElem?_eq_some_iff.mp hend).1
    exact lt_pageCount hsize (hlast.perm.length_eq ▸ hplace)
  have hfirstPage : row ∈ slice (orders (before key rows (key row) / size)) size
      (before key rows (key row) / size) := by
    simp only [orders, if_true]
    exact (mem_slice_iff hsize).mpr ⟨_, hstart, rfl⟩
  have hlastPage : row ∈ slice (orders ((upto key rows (key row) - 1) / size)) size
      ((upto key rows (key row) - 1) / size) := by
    simp only [orders, if_neg (Ne.symm hne)]
    exact (mem_slice_iff hsize).mpr ⟨_, hend, rfl⟩
  exact pages_disjoint (hboth.nodup_iff.mpr hnodup) hlo hhi hne hfirstPage hlastPage

theorem pages_perm_iff_unsplit (hsize : 0 < size) (hnodup : rows.Nodup) :
    (∀ orders : Nat → List α, (∀ page, Arranges (Descends key) rows (orders page)) →
      (pages orders size (pageCount rows.length size)).Perm rows) ↔ Unsplit key rows size :=
  ⟨unsplit_of_pages_perm hsize hnodup, fun h orders => pages_perm_of_unsplit hsize hnodup h orders⟩

end Paging
