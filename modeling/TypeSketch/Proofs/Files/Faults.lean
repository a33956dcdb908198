import TypeSketch.Proofs.Files.Scripts

/-!
# Faults of File Operations

Running a script while any of its file operations may fail. A fault takes the place of the
answer of one operation, which then has no effect: each operation has all of its effect or
none. What is looked for and cannot be looked at counts as missing. The clock does not fail.

A script asks for its operations one after another, so the faults are given by the places of
the operations in this order, and each of them may have any fault or none. Without faults a
script runs as it always does, although operations may still fail for what is on the disk.

## Main definitions

* `FaultyWorld`: A world and the faults that are to come.
* `Script.runWith`: Running a script with faults.

## Theorems

* `Script.runWith_none`: Running a script without faults.
* `Script.runWith_bind`: A script and one that goes on with its result.
-/

namespace TypeSketch

/-- A world, and the faults of the file operations that are to come, the next one first. -/
structure FaultyWorld extends World where
  faults : Nat → Option FileError

/-- The world with another disk, after an operation. -/
def FaultyWorld.next (world : FaultyWorld) (disk : Disk) : FaultyWorld where
  disk := disk
  now := world.now
  faults n := world.faults (n + 1)

namespace Script

variable {α β : Type}

/-- The answer of an operation, unless there is a fault. -/
def orFault (fault : Option FileError) (answer : Except FileError β) : Except FileError β :=
  match fault with
  | some error => .error error
  | none => answer

theorem orFault_eq_ok_iff {fault : Option FileError} {answer : Except FileError β} {b : β} :
    orFault fault answer = .ok b ↔ fault = none ∧ answer = .ok b := by
  cases fault <;> simp [orFault]

/-- The result of a script and the world after it, when operations may have faults. -/
def runWith : Script α → FaultyWorld → α × FaultyWorld
  | done a, world => (a, world)
  | readText path next, world =>
    (next (orFault (world.faults 0) (world.disk.readText path))).runWith (world.next world.disk)
  | writeText path text next, world =>
    let (answer, disk) :=
      world.disk.commit (orFault (world.faults 0) (world.disk.write path (.text text)))
    (next answer).runWith (world.next disk)
  | createDirectory path next, world =>
    let (answer, disk) :=
      world.disk.commit (orFault (world.faults 0) (world.disk.createDirectory path))
    (next answer).runWith (world.next disk)
  | inspect path next, world =>
    let answer := if (world.faults 0).isSome then none else world.disk.inspect path
    (next answer).runWith (world.next world.disk)
  | listDirectory path next, world =>
    (next (orFault (world.faults 0) (world.disk.listDirectory path))).runWith
      (world.next world.disk)
  | removeTree path next, world =>
    let (answer, disk) :=
      match world.faults 0 with
      | some error => (.error error, world.disk)
      | none => world.disk.removeTree path
    (next answer).runWith (world.next disk)
  | clock next, world => (next world.now).runWith world

theorem runWith_bind (script : Script α) (f : α → Script β) (world : FaultyWorld) :
    (script >>= f).runWith world =
      (f (script.runWith world).1).runWith (script.runWith world).2 := by
  change (script.bind f).runWith world = _
  -- An operation uses up one fault wherever it stands, so the rest starts with the same ones.
  induction script generalizing world with
  | done a => rfl
  | readText path next ih => exact ih _ _
  | writeText path text next ih => exact ih _ _
  | createDirectory path next ih => exact ih _ _
  | inspect path next ih => exact ih _ _
  | listDirectory path next ih => exact ih _ _
  | removeTree path next ih => exact ih _ _
  | clock next ih => exact ih _ world

/-- Without faults a script runs as it always does. -/
theorem runWith_none (script : Script α) (world : World) :
    script.runWith ⟨world, fun _ => none⟩ =
      ((script.run world).1, ⟨(script.run world).2, fun _ => none⟩) := by
  induction script generalizing world with
  | done a => rfl
  | readText path next ih => exact ih _ world
  | writeText path text next ih => exact ih _ ⟨_, world.now⟩
  | createDirectory path next ih => exact ih _ ⟨_, world.now⟩
  | inspect path next ih => exact ih _ world
  | listDirectory path next ih => exact ih _ world
  | removeTree path next ih => exact ih _ ⟨_, world.now⟩
  | clock next ih => exact ih _ world

theorem runWith_readText (path : String) (world : FaultyWorld) :
    (readText path done).runWith world =
      (orFault (world.faults 0) (world.disk.readText path), world.next world.disk) := rfl

theorem runWith_writeText (path text : String) (world : FaultyWorld) :
    (writeText path text done).runWith world =
      ((world.disk.commit (orFault (world.faults 0) (world.disk.write path (.text text)))).1,
        world.next
          (world.disk.commit (orFault (world.faults 0) (world.disk.write path (.text text)))).2) :=
  rfl

theorem runWith_clock (world : FaultyWorld) : (clock done).runWith world = (world.now, world) := rfl

end Script

end TypeSketch
