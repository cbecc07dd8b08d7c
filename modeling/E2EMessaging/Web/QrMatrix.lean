/-
  THE MODULES OF THE QR CODE (`clients/web/src/DeviceLinking.tsx`, `encodeAlphanumeric` and
  `buildQrMatrix`).

  The matrix is written in four passes over one grid.  The FUNCTION PATTERNS come first and reserve their
  cells; the bits of the codewords are dealt to the cells not reserved, in a zigzag of two columns at a
  time that leaves out the timing column; mask 0 flips every other one of these; the FORMAT INFORMATION is
  written last.

  Up to the mask the passes are lossless (`readCodewords_maskedMatrix`).  The format information is not:
  its cells were never reserved, so they hold data bits by then, and the last of its loops begins one
  column too far to the right: it ends with `matrix[8][37]`, and the row has 38 cells.  Every payload is
  hit (`qr_never_lossless`): seven of the cells hold bits of the first 22 codewords.

  Only payloads of hex digits are modelled, as these are what `encode_device_qr` returns: for them
  `toUpperCase` is that of ASCII, and `indexOf` finds what it looks for.
-/
import E2EMessaging.Lib.Grid
import E2EMessaging.Web.Backup
import E2EMessaging.Web.ReedSolomon

namespace E2EMessaging.Web.Qr

open E2EMessaging.Lib

/-! ## The data codewords -/

/-- `QR_VERSION`. -/
def qrVersion : Nat := 5

/-- `QR_SIZE`. -/
def qrSize : Nat := 17 + 4 * qrVersion

/-- `0-9`, `A-F`, `a-f`. -/
def isHexUnit (u : UInt16) : Bool :=
  (0x30 ≤ u && u ≤ 0x39) || (0x41 ≤ u && u ≤ 0x46) || (0x61 ≤ u && u ≤ 0x66)

/-- A payload of hex digits, upper or lower case. -/
structure HexPayload where
  units : JsString
  hex : ∀ u ∈ units, isHexUnit u = true

/-- `ALPHANUM_CHARS`. -/
def alphanumChars : JsString :=
  "0123456789ABCDEFGHIJKLMNOPQRSTUVWXYZ $%*+-./:".toList.map fun c => UInt16.ofNat c.toNat

/-- `toUpperCase`, in ASCII. -/
def toUpperCase (u : UInt16) : UInt16 := if 0x61 ≤ u ∧ u ≤ 0x7A then u - 0x20 else u

/-- `ALPHANUM_CHARS.indexOf(u.toUpperCase())`. -/
def alphanumIndex (u : UInt16) : Nat := alphanumChars.idxOf (toUpperCase u)

/-- `n.toString(2).padStart(width, '0').split('').map(Number)`. -/
def binaryDigits (n width : Nat) : List Bool :=
  (List.range (max width (n.log2 + 1))).reverse.map n.testBit

/-- The loop over pairs of characters. -/
def encodePairs : JsString → List Bool
  | [] => []
  | [u] => binaryDigits (alphanumIndex u) 6
  | u :: v :: rest => binaryDigits (alphanumIndex u * 45 + alphanumIndex v) 11 ++ encodePairs rest

/-- Mode, count and characters. -/
def alphanumBits (data : JsString) : List Bool :=
  [false, false, true, false] ++ binaryDigits data.length 9 ++ encodePairs data

/-- `maxBits`. -/
def maxBits : Nat := 196

/-- The terminator: four zeros, or what is left of the capacity, if anything is. -/
def terminator (n : Nat) : List Bool :=
  if 4 ≤ maxBits - n then List.replicate 4 false else List.replicate (maxBits - n) false

/-- `while (bits.length % 8 !== 0) bits.push(0);` -/
def padToByte (bits : List Bool) : List Bool :=
  bits ++ List.replicate ((8 - bits.length % 8) % 8) false

/-- `byte = (byte << 1) | bit`, over eight bits. -/
def packByte (bits : List Bool) : UInt8 :=
  bits.foldl (fun byte bit => byte <<< 1 ||| if bit then 1 else 0) 0

/-- The bytes of the bits. -/
def packBytes (bits : List Bool) : Bytes :=
  (List.range (bits.length / 8)).map fun k => packByte ((bits.drop (8 * k)).take 8)

/-- `while (result.length < 22) result.push(padBytes[padIdx++ % 2]);` -/
def padCodewords (result : Bytes) : Bytes :=
  result ++ (List.range (22 - result.length)).map fun padIdx => if padIdx % 2 = 0 then 0xec else 0x11

/-- `encodeAlphanumeric`. -/
def encodeAlphanumeric (data : JsString) : Bytes :=
  let bits := alphanumBits data
  padCodewords (packBytes (padToByte (bits ++ terminator bits.length)))

/-- `(byte >> 7) & 1`, …, `(byte >> 0) & 1`. -/
def byteBits (byte : UInt8) : List Bool :=
  [7, 6, 5, 4, 3, 2, 1, 0].map fun i => byte.toNat.testBit i

/-- `bits`: those of the data codewords, then those of the correction. -/
def codewordBits (payload : HexPayload) : List Bool :=
  (encodeAlphanumeric payload.units ++ rsEncode (encodeAlphanumeric payload.units) 18).flatMap byteBits

/-! ## The passes -/

/-- `matrix` and `reserved`. -/
structure QrGrids where
  matrix : Grid Bool
  reserved : Grid Bool

/-- `matrix[r][c] = v; reserved[r][c] = true;` -/
def QrGrids.mark (g : QrGrids) (cell : Cell) (v : Bool) : QrGrids :=
  ⟨g.matrix.write cell v, g.reserved.write cell true⟩

/-- Both grids at first. -/
def emptyGrids : QrGrids :=
  ⟨List.replicate qrSize (List.replicate qrSize false),
    List.replicate qrSize (List.replicate qrSize false)⟩

/-- `isBorder || isBorderV || isCenter`. -/
def finderModule (i j : Int) : Bool :=
  ((i == 0 || i == 6) && 0 ≤ j && j ≤ 6) || ((j == 0 || j == 6) && 0 ≤ i && i ≤ 6) ||
    (2 ≤ i && i ≤ 4 && 2 ≤ j && j ≤ 4)

/-- The body of the two loops of `placeFinder`. -/
def placeFinderModule (r c : Int) (g : QrGrids) (i j : Int) : QrGrids :=
  let rr := r + i
  let cc := c + j
  if rr < 0 ∨ rr ≥ qrSize ∨ cc < 0 ∨ cc ≥ qrSize then g
  else g.mark (rr.toNat, cc.toNat) (finderModule i j)

/-- `placeFinder`. -/
def placeFinder (g : QrGrids) (r c : Int) : QrGrids :=
  [-1, 0, 1, 2, 3, 4, 5, 6, 7].foldl
    (fun g i => [-1, 0, 1, 2, 3, 4, 5, 6, 7].foldl (fun g j => placeFinderModule r c g i j) g) g

/-- The body of the loop over the timing patterns. -/
def placeTiming (g : QrGrids) (i : Nat) : QrGrids :=
  (g.mark (6, i) (i % 2 == 0)).mark (i, 6) (i % 2 == 0)

/-- The function patterns: three finders, the timing, the dark module. -/
def functionPatterns : QrGrids :=
  let g := placeFinder emptyGrids 0 0
  let g := placeFinder g 0 (qrSize - 7)
  let g := placeFinder g (qrSize - 7) 0
  let g := (List.range' 8 (qrSize - 16)).foldl placeTiming g
  g.mark (qrSize - 8, 8) true

/-- `!reserved[r][c]`. -/
def free (cell : Cell) : Bool := !functionPatterns.reserved.read cell

/-- The cells of the columns `col` and `col - 1`, upwards or downwards. -/
def columnCells (up : Bool) (col : Nat) : List Cell :=
  (List.range qrSize).flatMap fun i =>
    let row := if up then qrSize - 1 - i else i
    [(row, col), (row, col - 1)]

/-- `while (col > 0)`, on the matrix and `bitIdx`. -/
def placeColumns (bits : List Bool) (col : Nat) (up : Bool) (st : Grid Bool × Nat) :
    Grid Bool × Nat :=
  if col = 0 then st
  else
    -- `if (col === 6) col--;`
    let col' := if col = 6 then col - 1 else col
    placeColumns bits (col' - 2) (!up) ((columnCells up col').foldl (Grid.deal free bits) st)
termination_by col
decreasing_by
  show (if col = 6 then col - 1 else col) - 2 < col
  split <;> omega

/-- The matrix with the bits. -/
def placedMatrix (bits : List Bool) : Grid Bool :=
  (placeColumns bits (qrSize - 1) true (functionPatterns.matrix, 0)).1

/-- All cells, row by row. -/
def allCells : List Cell := List.range qrSize ×ˢ List.range qrSize

/-- Mask 0 flips the cell. -/
def masked (cell : Cell) : Bool := (cell.1 + cell.2) % 2 == 0

/-- The mask. -/
def applyMask (m : Grid Bool) : Grid Bool :=
  allCells.foldl (Grid.change (fun cell => free cell && masked cell) not) m

/-- `formatBits`. -/
def formatBits : List Bool :=
  [true, false, true, false, true, false, false, false, false, false, true, false, false, true, false]

/-- `formatBits[i] === 1`. -/
def formatBit (i : Nat) : Bool := formatBits.getD i false

/-- The assignments that place the format information, in their order. -/
def formatWrites : List (Cell × Bool) :=
  ((List.range 6).map fun i => ((8, i), formatBit i)) ++
    [((8, 7), formatBit 6), ((8, 8), formatBit 7), ((7, 8), formatBit 8)] ++
    ((List.range 6).map fun i => ((5 - i, 8), formatBit (9 + i))) ++
    ((List.range 7).map fun i => ((qrSize - 1 - i, 8), formatBit i)) ++
    ((List.range 8).map fun i => ((8, qrSize - 7 + i), formatBit (7 + i)))

/-- The matrix before the format information. -/
def maskedMatrix (payload : HexPayload) : Grid Bool := applyMask (placedMatrix (codewordBits payload))

/-- `buildQrMatrix`. -/
def buildQrMatrix (payload : HexPayload) : Grid Bool := (maskedMatrix payload).writeAll formatWrites

/-! ## How many bits there are -/

/-- A number below `2 ^ width` is written in exactly so many digits: `padStart` fills up and never cuts. -/
theorem length_binaryDigits {n width : Nat} (hwidth : 0 < width) (hn : n < 2 ^ width) :
    (binaryDigits n width).length = width := by
  rw [binaryDigits, List.length_map, List.length_reverse, List.length_range]
  rcases Nat.eq_zero_or_pos n with rfl | hpos
  · rw [Nat.log2_zero]
    omega
  · have hlog := (Nat.log2_lt (Nat.ne_of_gt hpos)).mpr hn
    omega

/-- A hex digit is found among the first sixteen characters. -/
theorem alphanumIndex_lt {u : UInt16} (hu : isHexUnit u = true) : alphanumIndex u < 16 := by
  have hall : ∀ n < 0x67, isHexUnit (UInt16.ofNat n) = true → alphanumIndex (UInt16.ofNat n) < 16 := by
    decide +kernel
  have hlt : u.toNat < 0x67 := by
    simp only [isHexUnit, Bool.or_eq_true, Bool.and_eq_true, decide_eq_true_eq, UInt16.le_iff_toNat_le]
      at hu
    have hmax : (0x39 : UInt16).toNat = 0x39 ∧ (0x46 : UInt16).toNat = 0x46 ∧
        (0x66 : UInt16).toNat = 0x66 := ⟨rfl, rfl, rfl⟩
    omega
  have hu' := hall u.toNat hlt
  rw [UInt16.ofNat_toNat] at hu'
  exact hu' hu

/-- Eleven bits for a pair, six for a character left over. -/
theorem length_encodePairs {data : JsString} (hhex : ∀ u ∈ data, isHexUnit u = true) :
    2 * (encodePairs data).length = 11 * data.length + data.length % 2 := by
  fun_induction encodePairs data with
  | case1 => rfl
  | case2 u =>
    have hu := alphanumIndex_lt (hhex u List.mem_cons_self)
    rw [length_binaryDigits (by decide) (by omega)]
    rfl
  | case3 u v rest ih =>
    have hu := alphanumIndex_lt (hhex u List.mem_cons_self)
    have hv := alphanumIndex_lt (hhex v (List.mem_cons_of_mem _ List.mem_cons_self))
    have hrest := ih fun w hw => hhex w (List.mem_cons_of_mem _ (List.mem_cons_of_mem _ hw))
    rw [List.length_append, length_binaryDigits (by decide) (by omega)]
    simp only [List.length_cons]
    omega

/-- The codewords: as many as the bits need, and 22 at least.  Nothing caps their number, so a long payload has more
    than a symbol of this version. -/
theorem length_encodeAlphanumeric (data : JsString) :
    (encodeAlphanumeric data).length =
      max 22 (((alphanumBits data).length + (terminator (alphanumBits data).length).length + 7) / 8) := by
  simp only [encodeAlphanumeric, padCodewords, packBytes, padToByte, List.length_append,
    List.length_map, List.length_range, List.length_replicate]
  omega

/-- The bits that are placed are those of the data and of the error correction. -/
theorem length_codewordBits (payload : HexPayload) :
    (codewordBits payload).length =
      8 * ((encodeAlphanumeric payload.units).length +
        (rsEncode (encodeAlphanumeric payload.units) 18).length) := by
  rw [codewordBits, ← List.length_append, List.length_flatMap]
  have hbyte : ∀ bytes : Bytes, (bytes.map fun b => (byteBits b).length).sum = 8 * bytes.length := by
    intro bytes
    show (bytes.map fun _ => 8).sum = _
    rw [List.map_const', List.sum_replicate_nat, Nat.mul_comm]
  exact hbyte _

/-! ## The order of the cells -/

/-- The right columns of the pairs, in the order of the traversal, and whether it goes upwards. -/
def zigzagColumns : List (Bool × Nat) :=
  [(true, 36), (false, 34), (true, 32), (false, 30), (true, 28), (false, 26), (true, 24), (false, 22),
    (true, 20), (false, 18), (true, 16), (false, 14), (true, 12), (false, 10), (true, 8), (false, 5),
    (true, 3), (false, 1)]

/-- The cells in zigzag order. -/
def zigzag : List Cell := zigzagColumns.flatMap fun p => columnCells p.1 p.2

/-- The cells that are not function cells, in zigzag order. -/
def freeCells : List Cell := zigzag.filter free

/-- The columns from `col` on. -/
def columnsFrom (col : Nat) (up : Bool) : List (Bool × Nat) :=
  if col = 0 then []
  else
    let col' := if col = 6 then col - 1 else col
    (up, col') :: columnsFrom (col' - 2) (!up)
termination_by col
decreasing_by
  show (if col = 6 then col - 1 else col) - 2 < col
  split <;> omega

/-- The loop over the columns is the zigzag, written out. -/
theorem columnsFrom_last : columnsFrom (qrSize - 1) true = zigzagColumns := by
  simp [columnsFrom, qrSize, qrVersion, zigzagColumns]

/-- Placing is dealing the bits to the free cells in the order of the zigzag. -/
theorem placeColumns_eq (bits : List Bool) (col : Nat) (up : Bool) (st : Grid Bool × Nat) :
    placeColumns bits col up st =
      ((columnsFrom col up).flatMap fun p => columnCells p.1 p.2).foldl (Grid.deal free bits) st := by
  fun_induction columnsFrom col up generalizing st with
  | case1 => rw [placeColumns, if_pos rfl, List.flatMap_nil, List.foldl_nil]
  | case2 col up hcol col' ih =>
    rw [placeColumns, if_neg hcol, List.flatMap_cons, List.foldl_append]
    exact ih _

/-- The loop visits the cells in zigzag order. -/
theorem placedMatrix_eq (bits : List Bool) :
    placedMatrix bits = (zigzag.foldl (Grid.deal free bits) (functionPatterns.matrix, 0)).1 := by
  rw [placedMatrix, placeColumns_eq, columnsFrom_last, zigzag]

/-- A turn of the loop visits all rows of two columns. -/
theorem mem_columnCells {up : Bool} {col : Nat} {cell : Cell} :
    cell ∈ columnCells up col ↔ cell.1 < qrSize ∧ (cell.2 = col ∨ cell.2 = col - 1) := by
  obtain ⟨r, c⟩ := cell
  simp only [columnCells, List.mem_flatMap, List.mem_range, List.mem_cons, List.not_mem_nil, or_false,
    Prod.mk.injEq]
  constructor
  · rintro ⟨i, hi, ⟨hr, hc⟩ | ⟨hr, hc⟩⟩
    · exact ⟨by split at hr <;> omega, .inl hc⟩
    · exact ⟨by split at hr <;> omega, .inr hc⟩
  · rintro ⟨hr, hc⟩
    refine ⟨if up then qrSize - 1 - r else r, by split <;> omega, ?_⟩
    have hrow : r = if up then qrSize - 1 - (if up then qrSize - 1 - r else r)
        else if up then qrSize - 1 - r else r := by
      cases up
      · rfl
      · show r = qrSize - 1 - (qrSize - 1 - r)
        omega
    rcases hc with hc | hc
    · exact .inl ⟨hrow, hc⟩
    · exact .inr ⟨hrow, hc⟩

theorem nodup_columnCells (up : Bool) {col : Nat} (hcol : 0 < col) : (columnCells up col).Nodup := by
  refine List.nodup_flatMap.mpr ⟨?_, ?_⟩
  · intro i _
    have hne : col ≠ col - 1 := by omega
    simp [hne]
  · refine List.nodup_range.pairwise_of_forall_ne fun i hi j hj hij => ?_
    have hi' := List.mem_range.mp hi
    have hj' := List.mem_range.mp hj
    intro cell hcell hcell'
    -- the rows are different
    have hrow : ∀ k, cell ∈ [((if up then qrSize - 1 - k else k), col),
        ((if up then qrSize - 1 - k else k), col - 1)] → cell.1 = if up then qrSize - 1 - k else k := by
      intro k hk
      rcases List.mem_cons.mp hk with rfl | hk
      · rfl
      · rw [List.mem_singleton.mp hk]
    have heq := (hrow i hcell).symm.trans (hrow j hcell')
    split at heq <;> omega

/-- The columns of a pair come before those of the next. -/
theorem pairwise_zigzagColumns : zigzagColumns.Pairwise fun p q => q.2 + 1 < p.2 := by decide

/-- Nor does the whole zigzag, so no bit overwrites another. -/
theorem nodup_zigzag : zigzag.Nodup := by
  refine List.nodup_flatMap.mpr ⟨?_, ?_⟩
  · intro p hp
    have hpos : ∀ p ∈ zigzagColumns, 0 < p.2 := by decide
    exact nodup_columnCells p.1 (hpos p hp)
  · refine pairwise_zigzagColumns.imp fun {p q} hpq => ?_
    intro cell hp hq
    have hp' := (mem_columnCells.mp hp).2
    have hq' := (mem_columnCells.mp hq).2
    omega

theorem zigzag_inside {cell : Cell} (h : cell ∈ zigzag) : cell.1 < qrSize ∧ cell.2 < qrSize := by
  obtain ⟨p, hp, hcell⟩ := List.mem_flatMap.mp h
  obtain ⟨hr, hc⟩ := mem_columnCells.mp hcell
  have hlt : ∀ p ∈ zigzagColumns, p.2 < qrSize := by decide
  have hp' := hlt p hp
  exact ⟨hr, by omega⟩

/-- The function cells: three finders with their separators, the timing row and column, the dark
    module. -/
def functionCell (cell : Cell) : Bool :=
  (cell.1 ≤ 7 && cell.2 ≤ 7) || (cell.1 ≤ 7 && 29 ≤ cell.2) || (29 ≤ cell.1 && cell.2 ≤ 7) ||
    cell.1 == 6 || cell.2 == 6 || cell == (29, 8)

/-- These are the cells that the passes reserve. -/
theorem free_eq {cell : Cell} (h : cell.1 < qrSize ∧ cell.2 < qrSize) : free cell = !functionCell cell := by
  have hall : ∀ r < qrSize, ∀ c < qrSize, functionPatterns.reserved.read (r, c) = functionCell (r, c) := by
    decide +kernel
  rw [free, hall cell.1 h.1 cell.2 h.2]

/-- The cells that are dealt to are those of the zigzag outside the function patterns. -/
theorem freeCells_eq : freeCells = zigzag.filter fun cell => !functionCell cell :=
  List.filter_congr fun _ hcell => free_eq (zigzag_inside hcell)

theorem length_freeCells : freeCells.length = 1134 := by
  rw [freeCells_eq]
  decide +kernel

theorem nodup_freeCells : freeCells.Nodup := nodup_zigzag.filter _

/-- The cells that received a bit. -/
def dataCells (payload : HexPayload) : List Cell := freeCells.take (codewordBits payload).length

/-- Removing the mask and reading `n` cells in zigzag order. -/
def readCodewords (n : Nat) (m : Grid Bool) : List Bool := (freeCells.take n).map (applyMask m).read

/-! ## What the passes preserve -/

/-- The patterns are drawn inside the matrix: no row is lengthened. -/
theorem square_functionPatterns : Grid.Square qrSize functionPatterns.matrix := by
  constructor <;> decide +kernel

theorem square_placedMatrix (bits : List Bool) : Grid.Square qrSize (placedMatrix bits) := by
  rw [placedMatrix_eq, Grid.foldl_deal]
  refine square_functionPatterns.writeAll fun w hw => ?_
  exact zigzag_inside (List.mem_of_mem_filter (List.of_mem_zip hw).1)

theorem mem_allCells {cell : Cell} : cell ∈ allCells ↔ cell.1 < qrSize ∧ cell.2 < qrSize := by
  obtain ⟨r, c⟩ := cell
  rw [allCells, List.mem_product, List.mem_range, List.mem_range]

theorem nodup_allCells : allCells.Nodup := List.nodup_range.product List.nodup_range

theorem square_applyMask {m : Grid Bool} (h : Grid.Square qrSize m) :
    Grid.Square qrSize (applyMask m) := by
  have hrows : ∀ cell ∈ allCells, cell.1 < m.length := by
    intro cell hcell
    rw [h.rows]
    exact (mem_allCells.mp hcell).1
  rw [applyMask, Grid.foldl_change _ _ nodup_allCells hrows]
  refine h.writeAll fun w hw => ?_
  obtain ⟨cell, hcell, rfl⟩ := List.mem_map.mp hw
  exact mem_allCells.mp (List.mem_of_mem_filter hcell)

/-- So the matrix is square until the format information is written. -/
theorem square_maskedMatrix (payload : HexPayload) : Grid.Square qrSize (maskedMatrix payload) :=
  square_applyMask (square_placedMatrix _)

/-- A free cell is in the square and not reserved. -/
theorem mem_freeCells {cell : Cell} (h : cell ∈ freeCells) :
    cell ∈ allCells ∧ free cell = true := by
  obtain ⟨hzigzag, hfree⟩ := List.mem_filter.mp h
  exact ⟨mem_allCells.mpr (zigzag_inside hzigzag), hfree⟩

/-- The mask, on a cell that is not a function cell. -/
theorem read_applyMask {m : Grid Bool} (hrows : m.length = qrSize) {cell : Cell}
    (hcell : cell ∈ freeCells) : (applyMask m).read cell = (masked cell ^^ m.read cell) := by
  obtain ⟨hall, hfree⟩ := mem_freeCells hcell
  have hrows' : ∀ cell ∈ allCells, cell.1 < m.length := by
    intro cell hcell
    rw [hrows]
    exact (mem_allCells.mp hcell).1
  rw [applyMask, Grid.read_foldl_change nodup_allCells hrows' hall, hfree, Bool.true_and]
  cases masked cell <;> simp

/-! ## What is read back -/

/-- Reading takes the mask off the free cells, in the order in which they were dealt to. -/
theorem readCodewords_eq {m : Grid Bool} (hrows : m.length = qrSize) (n : Nat) :
    readCodewords n m = (freeCells.take n).map fun cell => masked cell ^^ m.read cell :=
  List.map_congr_left fun _ hcell => read_applyMask hrows (List.mem_of_mem_take hcell)

/-- **Before the format information the matrix holds the codewords.** -/
theorem readCodewords_maskedMatrix {payload : HexPayload}
    (hfits : (codewordBits payload).length ≤ freeCells.length) :
    readCodewords (codewordBits payload).length (maskedMatrix payload) = codewordBits payload := by
  have hplaced := square_placedMatrix (codewordBits payload)
  rw [readCodewords_eq (square_maskedMatrix payload).rows]
  -- the mask is its own inverse
  have htwice : ∀ cell ∈ freeCells.take (codewordBits payload).length,
      (masked cell ^^ (maskedMatrix payload).read cell) =
        (placedMatrix (codewordBits payload)).read cell := by
    intro cell hcell
    rw [maskedMatrix, read_applyMask hplaced.rows (List.mem_of_mem_take hcell), ← Bool.xor_assoc,
      Bool.xor_self, Bool.false_xor]
  rw [List.map_congr_left htwice, placedMatrix_eq]
  refine Grid.map_read_deal nodup_freeCells (fun cell hcell => ?_) hfits
  rw [square_functionPatterns.rows]
  exact (zigzag_inside hcell).1

/-- The module of a bit. -/
theorem read_maskedMatrix {payload : HexPayload}
    (hfits : (codewordBits payload).length ≤ freeCells.length) {k : Nat} {cell : Cell} {b : Bool}
    (hcell : freeCells[k]? = some cell) (hbit : (codewordBits payload)[k]? = some b) :
    (maskedMatrix payload).read cell = (masked cell ^^ b) := by
  have hk := (List.getElem?_eq_some_iff.mp hbit).1
  rw [← readCodewords_maskedMatrix hfits, readCodewords_eq (square_maskedMatrix payload).rows,
    List.getElem?_map, List.getElem?_take_of_lt hk, hcell, Option.map_some, Option.some_inj] at hbit
  rw [← hbit, ← Bool.xor_assoc, Bool.xor_self, Bool.false_xor]

/-- Every row written to exists. -/
theorem formatWrites_rows : ∀ w ∈ formatWrites, w.1.1 < qrSize := by decide

theorem nodup_formatWrites : (formatWrites.map Prod.fst).Nodup := by decide

/-- The matrix that is shown is the masked one, overwritten where the format information goes, whether a cell holds
    data or not. -/
theorem read_buildQrMatrix (payload : HexPayload) :
    (buildQrMatrix payload).read = updates (maskedMatrix payload).read formatWrites := by
  refine Grid.read_writeAll fun w hw => ?_
  rw [(square_maskedMatrix payload).rows]
  exact formatWrites_rows w hw

/-- **The codewords are read back only if the format information changes none of their modules.** -/
theorem readCodewords_buildQrMatrix {payload : HexPayload}
    (hfits : (codewordBits payload).length ≤ freeCells.length) :
    readCodewords (codewordBits payload).length (buildQrMatrix payload) = codewordBits payload ↔
      ∀ w ∈ formatWrites, w.1 ∈ dataCells payload → (maskedMatrix payload).read w.1 = w.2 := by
  have hrows : (buildQrMatrix payload).length = qrSize :=
    (Grid.length_writeAll ..).trans (square_maskedMatrix payload).rows
  have hbefore := readCodewords_maskedMatrix hfits
  rw [readCodewords_eq (square_maskedMatrix payload).rows] at hbefore
  rw [readCodewords_eq hrows, ← dataCells]
  rw [← dataCells] at hbefore
  constructor
  · intro hafter w hw hdata
    have hmap := List.map_inj_left.mp (hafter.trans hbefore.symm) w.1 hdata
    rw [Bool.xor_right_inj, read_buildQrMatrix, updates_of_mem nodup_formatWrites hw] at hmap
    exact hmap.symm
  · intro hsame
    refine Eq.trans (List.map_congr_left fun cell hcell => ?_) hbefore
    rw [read_buildQrMatrix]
    by_cases hwritten : ∃ w ∈ formatWrites, w.1 = cell
    · obtain ⟨w, hw, rfl⟩ := hwritten
      rw [updates_of_mem nodup_formatWrites hw, hsame w hw hcell]
    · rw [updates_of_not_mem fun w hw heq => hwritten ⟨w, hw, heq⟩]

/-! ## The format information -/

/-- The last assignment is to `matrix[8][37]`. -/
theorem formatWrites_last : formatWrites = formatWrites.dropLast ++ [((8, qrSize), formatBit 14)] := rfl

/-- **Row 8 has a cell too many.** -/
theorem length_row_buildQrMatrix (payload : HexPayload) {r : Nat} (hr : r < qrSize) :
    ((buildQrMatrix payload).getD r []).length = if r = 8 then qrSize + 1 else qrSize := by
  have hsquare : Grid.Square qrSize ((maskedMatrix payload).writeAll formatWrites.dropLast) :=
    (square_maskedMatrix payload).writeAll (by decide)
  have hlast : buildQrMatrix payload =
      ((maskedMatrix payload).writeAll formatWrites.dropLast).write (8, qrSize) (formatBit 14) :=
    (congrArg (maskedMatrix payload).writeAll formatWrites_last).trans (Grid.writeAll_concat ..)
  have hrow : 8 < ((maskedMatrix payload).writeAll formatWrites.dropLast).length := by
    rw [hsquare.rows]
    decide
  rw [hlast, Grid.length_row_write hrow, hsquare.cells r hr]
  split <;> omega

/-- Every payload has 22 data codewords at least. -/
theorem le_length_codewordBits (payload : HexPayload) : 176 ≤ (codewordBits payload).length := by
  rw [length_codewordBits, length_encodeAlphanumeric]
  omega

/-- **Seven modules of the format information hold data**, below the upper right finder. -/
theorem format_on_data (payload : HexPayload) {c : Nat} (hc : 30 ≤ c) (hc' : c < qrSize) :
    (8, c) ∈ dataCells payload := by
  have hfirst : ∀ i < 7, (8, 30 + i) ∈ freeCells.take 176 := by
    rw [freeCells_eq]
    decide +kernel
  obtain ⟨i, rfl⟩ := Nat.exists_eq_add_of_le hc
  have hsize : qrSize = 37 := rfl
  have hi : i < 7 := by omega
  exact List.take_subset_take_left _ (le_length_codewordBits payload) (hfirst i hi)

theorem formatWrites_upperRight {c : Nat} (hc : 30 ≤ c) (hc' : c < qrSize) :
    ∃ w ∈ formatWrites, w.1 = (8, c) := by
  have hall : ∀ i < 7, ∃ w ∈ formatWrites, w.1 = (8, 30 + i) := by decide
  obtain ⟨i, rfl⟩ := Nat.exists_eq_add_of_le hc
  have hsize : qrSize = 37 := rfl
  exact hall i (by omega)

theorem dataCells_free (payload : HexPayload) :
    ∀ cell ∈ dataCells payload, functionPatterns.reserved.read cell = false := by
  intro cell hcell
  have hfree := (mem_freeCells (List.mem_of_mem_take hcell)).2
  rw [free, Bool.not_eq_true'] at hfree
  exact hfree

/-- What the placement is for: a square of modules that holds the codewords, with nothing written over
    a cell that received a bit. -/
structure QrLossless (payload : HexPayload) : Prop where
  square : Grid.Square qrSize (buildQrMatrix payload)
  readBack : readCodewords (codewordBits payload).length (buildQrMatrix payload) = codewordBits payload
  patterns : ∀ cell ∈ dataCells payload, functionPatterns.reserved.read cell = false
  format : ∀ w ∈ formatWrites, w.1 ∉ dataCells payload

/-- The payload of a key, 66 digits, fits. -/
theorem codewordBits_fit {payload : HexPayload} (hlen : payload.units.length = 66) :
    (codewordBits payload).length ≤ freeCells.length := by
  have hpairs := length_encodePairs payload.hex
  have hbits : (alphanumBits payload.units).length = 376 := by
    rw [alphanumBits, List.length_append, List.length_append, hlen,
      length_binaryDigits (by decide) (by decide)]
    rw [hlen] at hpairs
    show 4 + 9 + _ = 376
    omega
  -- there is no room left for a terminator
  have hdata : (encodeAlphanumeric payload.units).length = 47 := by
    rw [length_encodeAlphanumeric, hbits]
    rfl
  have hec := length_rsEncode_le (encodeAlphanumeric payload.units) (by decide : 0 < 18) (by decide)
  rw [length_codewordBits, hdata, length_freeCells]
  omega

/-- **The placement loses data for every payload**: row 8 is too long, and the format information is
    written over data.  What is read back is right only where the modules had its values before. -/
theorem qr_never_lossless (payload : HexPayload)
    (hfits : (codewordBits payload).length ≤ freeCells.length) :
    ¬ QrLossless payload ∧
      (∀ r < qrSize, ((buildQrMatrix payload).getD r []).length =
        if r = 8 then qrSize + 1 else qrSize) ∧
      (∀ c, 30 ≤ c → c < qrSize → (8, c) ∈ dataCells payload ∧ ∃ w ∈ formatWrites, w.1 = (8, c)) ∧
      readCodewords (codewordBits payload).length (maskedMatrix payload) = codewordBits payload ∧
      (readCodewords (codewordBits payload).length (buildQrMatrix payload) = codewordBits payload ↔
        ∀ w ∈ formatWrites, w.1 ∈ dataCells payload → (maskedMatrix payload).read w.1 = w.2) ∧
      ∀ cell ∈ dataCells payload, functionPatterns.reserved.read cell = false := by
  refine ⟨fun h => ?_, fun r hr => length_row_buildQrMatrix payload hr, fun c hc hc' =>
    ⟨format_on_data payload hc hc', formatWrites_upperRight hc hc'⟩, readCodewords_maskedMatrix hfits,
    readCodewords_buildQrMatrix hfits, dataCells_free payload⟩
  obtain ⟨w, hw, hcell⟩ := formatWrites_upperRight (Nat.le_refl 30) (by decide)
  refine h.format w hw ?_
  rw [hcell]
  exact format_on_data payload (Nat.le_refl 30) (by decide)

/-- `05000001` and zeros: 66 digits, as for a key. -/
def keyPayload : HexPayload where
  units := [0x30, 0x35, 0x30, 0x30, 0x30, 0x30, 0x30, 0x31] ++ List.replicate 58 0x30
  hex := List.all_eq_true.mp (by decide)

/-- The code of a key loses its payload, and its row 8 has 38 modules instead of 37. -/
theorem qr_never_lossless_key :
    ¬ QrLossless keyPayload ∧ ((buildQrMatrix keyPayload).getD 8 []).length = 38 :=
  have h := qr_never_lossless keyPayload (codewordBits_fit (by decide))
  ⟨h.1, h.2.1 8 (by decide)⟩

/-- **Bit 56 of this payload is read wrong**, with the row too long and data written over. -/
theorem qr_key_payload_corrupted :
    (codewordBits keyPayload).length ≤ freeCells.length ∧ ¬ QrLossless keyPayload ∧
      readCodewords (codewordBits keyPayload).length (buildQrMatrix keyPayload) ≠
        codewordBits keyPayload := by
  have hfits : (codewordBits keyPayload).length ≤ freeCells.length := codewordBits_fit (by decide)
  have hread : readCodewords (codewordBits keyPayload).length (buildQrMatrix keyPayload) ≠
      codewordBits keyPayload := by
    intro hread
    have hsame := (readCodewords_buildQrMatrix hfits).mp hread ((8, 36), true) (by decide)
      (format_on_data keyPayload (by decide) (by decide))
    -- the bit is 1, and the mask has made the module white
    have hbit : (codewordBits keyPayload)[56]? = some true := by
      have hdata : ((encodeAlphanumeric keyPayload.units).flatMap byteBits)[56]? = some true := by
        decide +kernel
      rw [codewordBits, List.flatMap_append, List.getElem?_append_left, hdata]
      exact (List.getElem?_eq_some_iff.mp hdata).1
    have hcell : freeCells[56]? = some (8, 36) := by
      rw [freeCells_eq]
      decide +kernel
    have hmodule := read_maskedMatrix hfits hcell hbit
    rw [hsame] at hmodule
    exact absurd hmodule (by decide)
  exact ⟨hfits, fun h => hread h.readBack, hread⟩

end E2EMessaging.Web.Qr
