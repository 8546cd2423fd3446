import Rv64imCore.Clocked
import Rv64imCore.Units
import Rv64imCore.Decode
import Rv64imCore.Alu
import Rv64imCore.Axi
import Rv64imCore.Core
import Rv64imCore.CsrWrite
import Rv64imCore.CsrAtomic
import Rv64imCore.Forwarding
import Rv64imCore.LoadBypass
import Rv64imCore.Operand
import Rv64imCore.Branch
import Rv64imCore.CacheLines
import Rv64imCore.CacheMemory
import Rv64imCore.CacheRefines
import Rv64imCore.FetchStream
import Rv64imCore.ReadRouting
import Rv64imCore.WriteChannel
import Rv64imCore.Redirect
import Rv64imCore.ReplayDcache
import Rv64imCore.ReplayPredictor
import Rv64imCore.ReplayTables
import Rv64imCore.ReplayFetch
import Rv64imCore.Training
import Rv64imCore.Retire
import Rv64imCore.CsrFrame
import Rv64imCore.CarrySave
import Rv64imCore.Multiply
import Rv64imCore.LeadingBit
import Rv64imCore.DivisionSpec
import Rv64imCore.DivisionPhases
import Rv64imCore.Division
import Rv64imCore.WordDivision
import Rv64imCore.WordDivUnsigned
import Rv64imCore.WordDivSigned
import Rv64imCore.WordDivFits
import Rv64imCore.Zicsr
import Rv64imCore.Rv64i
import Rv64imCore.IntegerOps
import Rv64imCore.Ledger
import Rv64imCore.BusTraffic
import Rv64imCore.Lanes
import Rv64imCore.LoadResponse
import Rv64imCore.Bridge
import Rv64imCore.ClintStores
import Rv64imCore.PredictorTable
import Rv64imCore.RingStack
import Rv64imCore.ReturnStack
import Rv64imCore.OperandUse
import Rv64imCore.Add4to2
import Rv64imCore.Watchpoint
import Rv64imCore.Leads
import Rv64imCore.Hart
import Rv64imCore.GolAsm
import Rv64imCore.GolDecode
import Rv64imCore.GolExec
import Rv64imCore.GolRoundTrip
import Rv64imCore.GolAssembler
import Rv64imCore.GolMachine
import Rv64imCore.GolSimulation
import Rv64imCore.GolProgram
import Rv64imCore.Life
import Rv64imCore.GolReference
import Rv64imCore.GolRules
import Rv64imCore.GolGeneration
import Rv64imCore.GolPhases
import Rv64imCore.GolRun
import Rv64imCore.GolImage
import Rv64imCore.Infix
import Rv64imCore.Expr
import Rv64imCore.ExprMeaning
import Rv64imCore.ExprTokens
import Rv64imCore.ExprEval
import Rv64imCore.ExprNumbers
import Rv64imCore.ExprCorrect
import Rv64imCore.Rv64im
import Rv64imCore.HartMemory
import Rv64imCore.Stream
import Rv64imCore.Execute
import Rv64imCore.Lockstep
import Rv64imCore.Program
import Rv64imCore.DataSide
import Rv64imCore.TextCache
import Rv64imCore.AxiSlave
import Rv64imCore.ProgramText
import Rv64imCore.MemoryBus
import Rv64imCore.System
import Rv64imCore.TopProgram
import Rv64imCore.BusService
import Rv64imCore.Liveness
import Rv64imCore.Handshake
import Rv64imCore.Profile
import Rv64imCore.ProfileCounts
import Rv64imCore.ProfileEpisodes
import Rv64imCore.Pmem
import Rv64imCore.SimProgram
import Rv64imCore.Difftest
import Rv64imCore.MachineMode
import Rv64imCore.Privileged
