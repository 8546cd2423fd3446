import Rv64imCore.GolAssembler

/-! `build`: the calls that it makes, and its Python reference. -/

namespace Rv64imCore.Gol
set_option autoImplicit true

inductive Label where
  | start | clear | initRow | initCell | initSkip | warmLoop | warmDone | measureLoop | checksum
  | halt | generation | genRow | genCell | dead | setLive | store
  deriving DecidableEq

def emitMarker (event : Int) (payload : Option Reg) : List (Call Label) :=
  match payload with
  | some r => [.sd r 8 .t6, .li .t5 event, .sd .t5 0 .t6]
  | none => [.li .t5 event, .sd .t5 0 .t6]

def gridA : Int := 0x80010000
def stack : Int := 0x800ff000
def MARK : Int := 0xa0000100

/-! The calls, from the last label back: each list ends with the one before it. -/

def fromStore : List (Call Label) :=
  [.label .store, .sb .t3 0 .a7, .addi .a6 .a6 1, .addi .a7 .a7 1, .addi .t0 .t0 1,
    .branch .blt .t0 .t5 .genCell, .addi .a6 .a6 2, .addi .a7 .a7 2, .addi .a4 .a4 1,
    .branch .blt .a4 .a5 .genRow, .ret]

def fromSetLive : List (Call Label) := .label .setLive :: .li .t3 1 :: fromStore

def fromDead : List (Call Label) :=
  .label .dead :: .li .t4 3 :: .branch .bne .t1 .t4 .store :: fromSetLive

def offsets (width : Nat) : List Int :=
  [-width - 1, -width, -width + 1, -1, 1, width - 1, width, width + 1]

def sumNeighbours (width : Nat) : List (Call Label) :=
  (offsets width).flatMap fun off => [.lbu .t2 off .a6, .add .t1 .t1 .t2]

def fromGenCell (width : Nat) : List (Call Label) :=
  .label .genCell :: .li .t1 0 :: (sumNeighbours width ++
    .lbu .t2 0 .a6 :: .li .t3 0 :: .branch .beq .t2 .zero .dead ::
    .li .t4 2 :: .branch .beq .t1 .t4 .setLive :: .li .t4 3 :: .branch .beq .t1 .t4 .setLive ::
    .jal .zero .store :: fromDead)

def fromGenRow (width : Nat) : List (Call Label) :=
  .label .genRow :: .li .t0 1 :: fromGenCell width

def fromGeneration (width : Nat) : List (Call Label) :=
  .label .generation :: .li .a4 1 :: .addi .a5 .s4 (-1) :: .add .a6 .a0 .s3 :: .addi .a6 .a6 1 ::
    .add .a7 .a1 .s3 :: .addi .a7 .a7 1 :: .addi .t5 .s3 (-1) :: fromGenRow width

def fromHalt (width : Nat) : List (Call Label) :=
  .label .halt :: .jal .zero .halt :: fromGeneration width

def fromChecksum (width : Nat) : List (Call Label) :=
  .label .checksum :: .lbu .a3 0 .a0 :: .add .a2 .a2 .a3 :: .addi .a0 .a0 1 ::
    .addi .a1 .a1 (-1) :: .branch .bne .a1 .zero .checksum ::
    (emitMarker 5 (some .a2) ++ (emitMarker 6 none ++ fromHalt width))

/-- A generation and the swap of the two grids. -/
def turn (rest : List (Call Label)) : List (Call Label) :=
  .mv .a0 .s0 :: .mv .a1 .s1 :: .jal .ra .generation :: .mv .t0 .s0 :: .mv .s0 .s1 ::
    .mv .s1 .t0 :: .addi .s7 .s7 (-1) :: rest

def fromMeasured (width : Nat) : List (Call Label) :=
  .csrrCycle .s6 :: .sub .s6 .s6 .s5 :: (emitMarker 4 (some .s6) ++
    .mv .a0 .s0 :: .mv .a1 .s2 :: .li .a2 0 :: fromChecksum width)

def fromMeasureLoop (width : Nat) : List (Call Label) :=
  .label .measureLoop :: turn (.branch .bne .s7 .zero .measureLoop :: fromMeasured width)

def fromWarmDone (width measured : Nat) : List (Call Label) :=
  .label .warmDone :: .csrrCycle .s5 ::
    (emitMarker 3 none ++ .li .s7 measured :: fromMeasureLoop width)

def fromWarmLoop (width measured : Nat) : List (Call Label) :=
  .label .warmLoop :: .branch .beq .s7 .zero .warmDone ::
    turn (.jal .zero .warmLoop :: fromWarmDone width measured)

def fromWarm (width warmup measured : Nat) : List (Call Label) :=
  .csrrCycle .s6 :: .sub .s6 .s6 .s5 ::
    (emitMarker 2 (some .s6) ++ .li .s7 warmup :: fromWarmLoop width measured)

def fromInitSkip (width warmup measured : Nat) : List (Call Label) :=
  .label .initSkip :: .addi .a0 .a0 1 :: .addi .a3 .a3 1 :: .branch .blt .a3 .a2 .initCell ::
    .addi .a0 .a0 2 :: .addi .a1 .a1 1 :: .branch .blt .a1 .a6 .initRow ::
    fromWarm width warmup measured

def fromInitCell (width warmup measured : Nat) : List (Call Label) :=
  .label .initCell :: .xor .a4 .a3 .a1 :: .andi .a4 .a4 3 ::
    .branch .bne .a4 .zero .initSkip :: .li .a5 1 :: .sb .a5 0 .a0 ::
    fromInitSkip width warmup measured

def fromInitRow (width warmup measured : Nat) : List (Call Label) :=
  .label .initRow :: .li .a3 1 :: fromInitCell width warmup measured

def fromInit (width height warmup measured : Nat) : List (Call Label) :=
  .li .a0 (gridA + width + 1) :: .li .a1 1 :: .li .a2 (width - 1) :: .li .a6 (height - 1) ::
    fromInitRow width warmup measured

def fromClear (width height warmup measured : Nat) : List (Call Label) :=
  .label .clear :: .sb .zero 0 .a0 :: .sb .zero 0 .a1 :: .addi .a0 .a0 1 :: .addi .a1 .a1 1 ::
    .addi .a2 .a2 (-1) :: .branch .bne .a2 .zero .clear :: fromInit width height warmup measured

/-- The calls of `build`. -/
def program (width height warmup measured : Nat) : List (Call Label) :=
  .label .start :: .li .sp stack :: .li .s0 gridA :: .li .s1 (gridA + ↑(width * height)) ::
    .li .s2 ↑(width * height) :: .li .s3 width :: .li .s4 height :: .li .t6 MARK ::
    .csrrCycle .s5 :: (emitMarker 1 none ++
    .mv .a0 .s0 :: .mv .a1 .s1 :: .mv .a2 .s2 :: fromClear width height warmup measured)

section Labels
variable (width height warmup measured : Nat)

/-- The calls behind a label. -/
def afterLabel : Label → List (Call Label)
  | .start => (program width height warmup measured).tail
  | .clear => (fromClear width height warmup measured).tail
  | .initRow => (fromInitRow width warmup measured).tail
  | .initCell => (fromInitCell width warmup measured).tail
  | .initSkip => (fromInitSkip width warmup measured).tail
  | .warmLoop => (fromWarmLoop width measured).tail
  | .warmDone => (fromWarmDone width measured).tail
  | .measureLoop => (fromMeasureLoop width).tail
  | .checksum => (fromChecksum width).tail
  | .halt => (fromHalt width).tail
  | .generation => (fromGeneration width).tail
  | .genRow => (fromGenRow width).tail
  | .genCell => (fromGenCell width).tail
  | .dead => fromDead.tail
  | .setLive => fromSetLive.tail
  | .store => fromStore.tail

set_option maxRecDepth 10000 in
theorem after_program (l : Label) :
    after l (program width height warmup measured)
      = some (afterLabel width height warmup measured l) := by
  cases l <;> rfl

theorem program_linked : Linked (program width height warmup measured) := by
  intro c _ k f _
  rw [after_program]
  rfl

set_option maxRecDepth 10000 in
theorem program_size : size (program width height warmup measured) < 1024 :=
  Nat.lt_of_le_of_lt (size_le _) (Nat.le_of_ble_eq_true rfl)

end Labels

/-! The reference: a grid is a list of rows. -/

abbrev Grid := List (List Nat)

/-- `g[y][x]`; no index of `build` is negative or beyond the grid. -/
def cell (g : Grid) (y x : Int) : Nat := (g.getD y.toNat []).getD x.toNat 0

/-- `g[y][x] = v`. -/
def setCell (g : Grid) (y x v : Nat) : Grid := g.modify y fun row => row.set x v

def zeros (width height : Nat) : Grid := List.replicate height (List.replicate width 0)

/-- `range(1, n - 1)`. -/
def inside (n : Nat) : List Nat := List.range' 1 (n - 2)

/-- A grid of zeros with `f y x` written into its inside. -/
def fill (width height : Nat) (f : Nat → Nat → Nat) : Grid :=
  (inside height).foldl
    (fun g y => (inside width).foldl (fun g x => setCell g y x (f y x)) g) (zeros width height)

def seed (width height : Nat) : Grid :=
  fill width height fun y x => if (x ^^^ y) &&& 3 = 0 then 1 else 0

/-- The pairs `(dy, dx)` of the neighbours. -/
def around : List (Int × Int) :=
  [-1, 0, 1].flatMap fun dy => ([-1, 0, 1].filter fun dx => dx ≠ 0 ∨ dy ≠ 0).map fun dx => (dy, dx)

def step (width height : Nat) (g : Grid) : Grid :=
  fill width height fun y x =>
    let s := (around.map fun p => cell g (y + p.1) (x + p.2)).sum
    if s = 3 ∨ cell g y x ≠ 0 ∧ s = 2 then 1 else 0

structure Built where
  words : List Nat
  checksum : Nat
  A : Int
  B : Int
  STACK : Int

/-- `none` is the `KeyError` of a branch without its label. -/
def build (width height warmup measured : Nat) : Option Built :=
  ((Asm.init.calls (program width height warmup measured)).resolve).map fun a =>
    { words := a.words
      checksum := (((step width height)^[warmup + measured] (seed width height)).map List.sum).sum
      A := gridA, B := gridA + ↑(width * height), STACK := stack }

end Rv64imCore.Gol
