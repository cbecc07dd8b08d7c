/-
  GRIDS WRITTEN IN PASSES: rows of cells, with the assignment `grid[r][c] = v` of JavaScript.

  A write behind the end of a row makes the row longer, and what is read there before is `undefined`,
  here the default value.  Seen as a FUNCTION of the cell (`read`), a grid does not know the difference:
  a write to one of its rows is an update of that function (`read_write`), whatever the lengths of the
  rows.  What it does to the lengths is a fact of its own (`length_row_write`).

    * `writeAll` — writes one after the other; a table, if no cell is written twice; a square stays one
                   (`Square.writeAll`) if no cell is outside of it;
    * `deal`     — values are dealt to the free cells of a traversal, in its order, until there are
                   none left; read in the same order, they come out again (`map_read_deal`);
    * `change`   — the selected cells of a traversal are changed, each once (`read_foldl_change`).

  The two traversals are writes one after the other, too (`foldl_deal`, `foldl_change`).
-/
import Mathlib.Data.List.Basic
import Mathlib.Logic.Function.Basic

namespace E2EMessaging.Lib

/-- A row and a column. -/
abbrev Cell := Nat × Nat

/-- The rows of a grid, from the top. -/
abbrev Grid (α : Type) := List (List α)

variable {α : Type}

/-! ## Functions of cells -/

/-- Updates one after the other. -/
def updates (f : Cell → α) (ws : List (Cell × α)) : Cell → α :=
  ws.foldl (fun f w => Function.update f w.1 w.2) f

theorem updates_of_not_mem {f : Cell → α} {ws : List (Cell × α)} {cell : Cell}
    (h : ∀ w ∈ ws, w.1 ≠ cell) : updates f ws cell = f cell := by
  induction ws generalizing f with
  | nil => rfl
  | cons w ws ih =>
    show updates (Function.update f w.1 w.2) ws cell = f cell
    rw [ih fun w' hw' => h w' (List.mem_cons_of_mem _ hw'),
      Function.update_of_ne (h w List.mem_cons_self).symm]

/-- Without repetitions the updates are a table. -/
theorem updates_of_mem {f : Cell → α} {ws : List (Cell × α)} (hnodup : (ws.map Prod.fst).Nodup)
    {w : Cell × α} (hw : w ∈ ws) : updates f ws w.1 = w.2 := by
  induction ws generalizing f with
  | nil => cases hw
  | cons w' ws ih =>
    obtain ⟨hfirst, hrest⟩ := List.nodup_cons.mp hnodup
    show updates (Function.update f w'.1 w'.2) ws w.1 = w.2
    rcases List.mem_cons.mp hw with rfl | hw
    · have hlater : ∀ v ∈ ws, v.1 ≠ w.1 := by
        intro v hv heq
        exact hfirst (heq ▸ List.mem_map_of_mem hv)
      rw [updates_of_not_mem hlater, Function.update_self]
    · exact ih hrest hw

/-! ## Writing -/

section

variable [Inhabited α]

/-- `row[c] = v`. -/
def assign (row : List α) (c : Nat) (v : α) : List α :=
  if c < row.length then row.set c v else row ++ List.replicate (c - row.length) default ++ [v]

theorem getD_assign (row : List α) (c : Nat) (v : α) (j : Nat) :
    (assign row c v).getD j default = if j = c then v else row.getD j default := by
  unfold assign
  simp only [List.getD_eq_getElem?_getD]
  by_cases hc : c < row.length
  · rw [if_pos hc]
    by_cases hj : j = c
    · rw [if_pos hj, hj, List.getElem?_set_self hc]
      rfl
    · rw [if_neg hj, List.getElem?_set_ne (Ne.symm hj)]
  · rw [if_neg hc]
    have hlen : (row ++ List.replicate (c - row.length) default).length = c := by
      rw [List.length_append, List.length_replicate]
      omega
    rcases Nat.lt_trichotomy j c with hlt | rfl | hgt
    · rw [if_neg (by omega), List.getElem?_append_left (by omega)]
      by_cases hrow : j < row.length
      · rw [List.getElem?_append_left hrow]
      · -- between the old end and the new cell
        rw [List.getElem?_append_right (by omega), List.getElem?_replicate, if_pos (by omega),
          List.getElem?_eq_none (by omega : row.length ≤ j)]
        rfl
    · rw [if_pos rfl, List.getElem?_append_right (by omega), hlen, Nat.sub_self]
      rfl
    · rw [if_neg (by omega), List.getElem?_eq_none, List.getElem?_eq_none (by omega : row.length ≤ j)]
      rw [List.length_append, hlen, List.length_singleton]
      omega

theorem length_assign (row : List α) (c : Nat) (v : α) :
    (assign row c v).length = max row.length (c + 1) := by
  unfold assign
  split
  · rw [List.length_set]
    omega
  · simp only [List.length_append, List.length_replicate, List.length_singleton]
    omega

namespace Grid

/-- `grid[r][c]`. -/
def read (g : Grid α) (cell : Cell) : α := (g.getD cell.1 []).getD cell.2 default

/-- `grid[r][c] = v`. -/
def write (g : Grid α) (cell : Cell) (v : α) : Grid α :=
  g.modify cell.1 fun row => assign row cell.2 v

theorem length_write (g : Grid α) (cell : Cell) (v : α) : (g.write cell v).length = g.length :=
  List.length_modify ..

theorem getD_write {g : Grid α} {cell : Cell} (hrow : cell.1 < g.length) (v : α) (r : Nat) :
    (g.write cell v).getD r [] =
      if r = cell.1 then assign (g.getD r []) cell.2 v else g.getD r [] := by
  unfold write
  rw [List.getD_eq_getElem?_getD, List.getElem?_modify, List.getD_eq_getElem?_getD]
  by_cases hr : r = cell.1
  · subst hr
    simp [List.getElem?_eq_getElem hrow]
  · simp [hr, Ne.symm hr]

/-- **A write is an update.** -/
theorem read_write {g : Grid α} {cell : Cell} (hrow : cell.1 < g.length) (v : α) :
    (g.write cell v).read = Function.update g.read cell v := by
  funext other
  unfold read
  rw [getD_write hrow]
  by_cases hcell : other = cell
  · rw [hcell, if_pos rfl, Function.update_self, getD_assign, if_pos rfl]
  · rw [Function.update_of_ne hcell]
    by_cases hr : other.1 = cell.1
    · have hc : other.2 ≠ cell.2 := fun hc => hcell (Prod.ext hr hc)
      rw [if_pos hr, getD_assign, if_neg hc]
    · rw [if_neg hr]

/-- The row written to reaches to the cell at least. -/
theorem length_row_write {g : Grid α} {cell : Cell} (hrow : cell.1 < g.length) (v : α) (r : Nat) :
    ((g.write cell v).getD r []).length =
      if r = cell.1 then max (g.getD r []).length (cell.2 + 1) else (g.getD r []).length := by
  rw [getD_write hrow]
  split
  · exact length_assign ..
  · rfl

/-- Writes one after the other. -/
def writeAll (g : Grid α) (ws : List (Cell × α)) : Grid α := ws.foldl (fun g w => g.write w.1 w.2) g

theorem writeAll_concat (g : Grid α) (ws : List (Cell × α)) (w : Cell × α) :
    g.writeAll (ws ++ [w]) = (g.writeAll ws).write w.1 w.2 := List.foldl_concat ..

theorem length_writeAll (g : Grid α) (ws : List (Cell × α)) : (g.writeAll ws).length = g.length := by
  induction ws generalizing g with
  | nil => rfl
  | cons w ws ih => exact (ih _).trans (length_write ..)

theorem read_writeAll {g : Grid α} {ws : List (Cell × α)} (hrows : ∀ w ∈ ws, w.1.1 < g.length) :
    (g.writeAll ws).read = updates g.read ws := by
  induction ws generalizing g with
  | nil => rfl
  | cons w ws ih =>
    show ((g.write w.1 w.2).writeAll ws).read = updates (Function.update g.read w.1 w.2) ws
    rw [← read_write (hrows w List.mem_cons_self)]
    refine ih fun w' hw' => ?_
    rw [length_write]
    exact hrows w' (List.mem_cons_of_mem _ hw')

/-- `n` rows of `n` cells. -/
structure Square (n : Nat) (g : Grid α) : Prop where
  rows : g.length = n
  cells : ∀ r < n, (g.getD r []).length = n

theorem Square.write {n : Nat} {g : Grid α} (h : Square n g) {cell : Cell}
    (hinside : cell.1 < n ∧ cell.2 < n) (v : α) : Square n (g.write cell v) := by
  obtain ⟨hr, hc⟩ := hinside
  have hrow : cell.1 < g.length := by
    rw [h.rows]
    exact hr
  refine ⟨(length_write ..).trans h.rows, fun r hlt => ?_⟩
  rw [length_row_write hrow, h.cells r hlt]
  split <;> omega

/-- A square stays one if the cells written are inside it. -/
theorem Square.writeAll {n : Nat} {g : Grid α} (h : Square n g) {ws : List (Cell × α)}
    (hinside : ∀ w ∈ ws, w.1.1 < n ∧ w.1.2 < n) : Square n (g.writeAll ws) := by
  induction ws generalizing g with
  | nil => exact h
  | cons w ws ih =>
    exact ih (h.write (hinside w List.mem_cons_self) w.2) fun w' hw' =>
      hinside w' (List.mem_cons_of_mem _ hw')

/-! ## Dealing values to the free cells -/

/-- The next value goes to the cell, if it is free and there is a value left. -/
def deal (free : Cell → Bool) (vs : List α) (st : Grid α × Nat) (cell : Cell) : Grid α × Nat :=
  if free cell = true ∧ st.2 < vs.length then (st.1.write cell (vs.getD st.2 default), st.2 + 1) else st

theorem foldl_deal (free : Cell → Bool) (vs : List α) (cells : List Cell) (g : Grid α) (k : Nat) :
    (cells.foldl (deal free vs) (g, k)).1 = g.writeAll ((cells.filter free).zip (vs.drop k)) := by
  induction cells generalizing g k with
  | nil => rfl
  | cons cell cells ih =>
    rw [List.foldl_cons]
    cases hfree : free cell with
    | false =>
      have hstay : deal free vs (g, k) cell = (g, k) := if_neg (by simp [hfree])
      rw [hstay, ih, List.filter_cons_of_neg (by simp [hfree])]
    | true =>
      rw [List.filter_cons_of_pos hfree]
      by_cases hk : k < vs.length
      · have hdeal : deal free vs (g, k) cell = (g.write cell vs[k], k + 1) := by
          unfold deal
          rw [if_pos ⟨hfree, hk⟩, List.getD_eq_getElem?_getD, List.getElem?_eq_getElem hk,
            Option.getD_some]
        rw [hdeal, ih, List.drop_eq_getElem_cons hk]
        rfl
      · have hstay : deal free vs (g, k) cell = (g, k) := if_neg fun h => hk h.2
        rw [hstay, ih, List.drop_eq_nil_of_le (by omega : vs.length ≤ k), List.zip_nil_right,
          List.zip_nil_right]

/-- **What was dealt is read again**, in the order of the traversal. -/
theorem map_read_deal {free : Cell → Bool} {vs : List α} {cells : List Cell} {g : Grid α}
    (hnodup : (cells.filter free).Nodup) (hrows : ∀ cell ∈ cells, cell.1 < g.length)
    (hfit : vs.length ≤ (cells.filter free).length) :
    ((cells.filter free).take vs.length).map (cells.foldl (deal free vs) (g, 0)).1.read = vs := by
  rw [foldl_deal, List.drop_zero]
  have hzip : ((cells.filter free).zip vs).map Prod.fst = (cells.filter free).take vs.length := by
    rw [List.zip_eq_zip_take_min, Nat.min_eq_right hfit, List.take_length]
    refine List.map_fst_zip ?_
    rw [List.length_take]
    omega
  have hwrites : ∀ w ∈ (cells.filter free).zip vs, w.1.1 < g.length := by
    intro w hw
    exact hrows w.1 (List.mem_of_mem_filter (List.of_mem_zip hw).1)
  rw [read_writeAll hwrites, ← hzip, List.map_map]
  calc ((cells.filter free).zip vs).map (updates g.read ((cells.filter free).zip vs) ∘ Prod.fst)
      = ((cells.filter free).zip vs).map Prod.snd := by
        refine List.map_congr_left fun w hw => ?_
        refine updates_of_mem ?_ hw
        rw [hzip]
        exact hnodup.sublist (List.take_sublist ..)
    _ = vs := List.map_snd_zip hfit

/-! ## Changing the selected cells -/

/-- The cell is changed, if it is selected. -/
def change (selected : Cell → Bool) (f : α → α) (g : Grid α) (cell : Cell) : Grid α :=
  if selected cell = true then g.write cell (f (g.read cell)) else g

theorem foldl_change (selected : Cell → Bool) (f : α → α) {cells : List Cell} {g : Grid α}
    (hnodup : cells.Nodup) (hrows : ∀ cell ∈ cells, cell.1 < g.length) :
    cells.foldl (change selected f) g =
      g.writeAll ((cells.filter selected).map fun cell => (cell, f (g.read cell))) := by
  induction cells generalizing g with
  | nil => rfl
  | cons cell cells ih =>
    obtain ⟨hfirst, hrest⟩ := List.nodup_cons.mp hnodup
    have hrow := hrows cell List.mem_cons_self
    have hrows' : ∀ other ∈ cells, other.1 < g.length := fun other h =>
      hrows other (List.mem_cons_of_mem _ h)
    rw [List.foldl_cons]
    cases hsel : selected cell with
    | false =>
      have hstay : change selected f g cell = g := if_neg (by simp [hsel])
      rw [hstay, ih hrest hrows', List.filter_cons_of_neg (by simp [hsel])]
    | true =>
      have hwrite : change selected f g cell = g.write cell (f (g.read cell)) := if_pos hsel
      have hlen : (g.write cell (f (g.read cell))).length = g.length := length_write ..
      rw [hwrite, ih hrest (by rw [hlen]; exact hrows'), List.filter_cons_of_pos hsel, List.map_cons]
      -- the cells after it are read as before
      have hlater : ∀ other ∈ cells.filter selected,
          (other, f ((g.write cell (f (g.read cell))).read other)) = (other, f (g.read other)) := by
        intro other hother
        have hne : other ≠ cell := fun h => hfirst (h ▸ List.mem_of_mem_filter hother)
        rw [read_write hrow, Function.update_of_ne hne]
      rw [List.map_congr_left hlater]
      rfl

/-- **Each selected cell is changed once.** -/
theorem read_foldl_change {selected : Cell → Bool} {f : α → α} {cells : List Cell} {g : Grid α}
    (hnodup : cells.Nodup) (hrows : ∀ cell ∈ cells, cell.1 < g.length) {cell : Cell}
    (hcell : cell ∈ cells) :
    (cells.foldl (change selected f) g).read cell =
      if selected cell = true then f (g.read cell) else g.read cell := by
  rw [foldl_change selected f hnodup hrows, read_writeAll]
  · have hcells : ((cells.filter selected).map fun cell => (cell, f (g.read cell))).map Prod.fst =
        cells.filter selected := by
      rw [List.map_map]
      exact List.map_id _
    split
    · rename_i hsel
      have hmem : (cell, f (g.read cell)) ∈ (cells.filter selected).map fun cell =>
          (cell, f (g.read cell)) := List.mem_map_of_mem (List.mem_filter.mpr ⟨hcell, hsel⟩)
      refine updates_of_mem ?_ hmem
      rw [hcells]
      exact hnodup.filter _
    · rename_i hsel
      refine updates_of_not_mem fun w hw heq => hsel ?_
      obtain ⟨other, hother, rfl⟩ := List.mem_map.mp hw
      exact heq ▸ (List.mem_filter.mp hother).2
  · intro w hw
    obtain ⟨other, hother, rfl⟩ := List.mem_map.mp hw
    exact hrows other (List.mem_of_mem_filter hother)

end Grid

end

end E2EMessaging.Lib
