import Chip8.Bench
import Chip8.Main
import Chip8.Window
import Chip8.Proofs.Hoare
import Chip8.Proofs.Sprite
import Chip8.Proofs.SpriteAction
import Chip8.Proofs.WellFormed
import Chip8.Proofs.Encoding
import Chip8.Proofs.Runs
import Chip8.Proofs.Snapshot
import Chip8.Proofs.InstructionSet
import Chip8.Proofs.FlagOperands
import Chip8.Proofs.SpillFill
import Chip8.Proofs.Unlisted
import Chip8.Proofs.HostInvariant
import Chip8.Proofs.MachineInvariant
import Chip8.Proofs.CallStack
import Chip8.Proofs.Driving
import Chip8.Proofs.FaultAtomicity
import Chip8.Proofs.Batching
import Chip8.Proofs.Polling
import Chip8.Proofs.TimerTicks
import Chip8.Proofs.Rounding
import Chip8.Proofs.WallClock
import Chip8.Proofs.Renumbering
import Chip8.Proofs.Settings
import Chip8.Proofs.FrequencyChange
import Chip8.Proofs.Twins
import Chip8.Proofs.Renewal
import Chip8.Proofs.Dispatching
import Chip8.Proofs.Surroundings
import Chip8.Proofs.Orderly
import Chip8.Proofs.Cancellation
import Chip8.Proofs.StalledTimers
import Chip8.Proofs.Appointments
import Chip8.Proofs.Punctuality
import Chip8.Proofs.Precision
import Chip8.Proofs.Arrears
import Chip8.Proofs.Beeps
import Chip8.Proofs.SoundTimer
import Chip8.Proofs.Clockwork
import Chip8.Proofs.DirtyFlag
import Chip8.Proofs.FreshPicture
import Chip8.Proofs.HeldKeys
import Chip8.Proofs.InputHandling
import Chip8.Proofs.Shutdown
import Chip8.Proofs.Loading
import Chip8.Proofs.LoadErrors
import Chip8.Proofs.Renderings
import Chip8.Proofs.Dumps
import Chip8.Proofs.HexGrammar
import Chip8.Proofs.ElapsedCycles
import Chip8.Proofs.BeeperRuns
import Chip8.Proofs.TimerRate
import Chip8.Proofs.PriorityQueue
