import CargoStylus.Rust.Outcome
import CargoStylus.Rust.Utf8
import CargoStylus.Rust.Text
import CargoStylus.Rust.Codec
import CargoStylus.Rust.Feed
import CargoStylus.Rust.SelfDelimiting
import CargoStylus.Rust.Path
import CargoStylus.Rust.Interaction
import CargoStylus.Rust.Grouping
import CargoStylus.Json
import CargoStylus.Trace
import CargoStylus.ParseFrame
import CargoStylus.TraceFormat
import CargoStylus.RoundTrip
import CargoStylus.TraceNew
import CargoStylus.ConsoleLog
import CargoStylus.Layout
import CargoStylus.Totality
import CargoStylus.Js
import CargoStylus.Tracer
import CargoStylus.CallTree
import CargoStylus.Agreement
import CargoStylus.Recording
import CargoStylus.Rust.Memory
import CargoStylus.FrameReader
import CargoStylus.SubFrames
import CargoStylus.Hostio
import CargoStylus.HostCall
import CargoStylus.HostRun
import CargoStylus.Replay
import CargoStylus.Config
import CargoStylus.Deploy
import CargoStylus.Evm.Machine
import CargoStylus.InitCode
import CargoStylus.ExportAbi
import CargoStylus.Deployer
import CargoStylus.DeployerAbi
import CargoStylus.Verify
import CargoStylus.Wasm.Binary
import CargoStylus.WasmLibs
import CargoStylus.Project
import CargoStylus.ProjectHash
import CargoStylus.SourceTree
import CargoStylus.SourceFiles
import CargoStylus.Build
import CargoStylus.Cli.CommandLine
import CargoStylus.Cli.LongOptions
import CargoStylus.Display
import CargoStylus.HexText
import CargoStylus.Opts
import CargoStylus.Relay
import CargoStylus.VerifyRelay
import CargoStylus.Provider
import CargoStylus.DeployRun
import CargoStylus.DeployerLogs
import CargoStylus.DeployPlan
import CargoStylus.SameBuild
import CargoStylus.EtherAccounting
import CargoStylus.Export
import CargoStylus.Activate
import CargoStylus.Fees
import CargoStylus.Gen
import CargoStylus.GenRouter
import CargoStylus.Toolchain
import CargoStylus.VerifySlices
import CargoStylus.ReaderLaw
import CargoStylus.SourceWalk
import CargoStylus.Rust.Worklist
import CargoStylus.SourceGraph
import CargoStylus.StorageLayout
import CargoStylus.GenFiles
import CargoStylus.GenPaths
import CargoStylus.GenGuards
import CargoStylus.GenOrder
import CargoStylus.Rust.Shared
import CargoStylus.Rust.Embedding
import CargoStylus.Rust.Panics
import CargoStylus.DeployVerify
import CargoStylus.LocalBuild
import CargoStylus.Docker
import CargoStylus.Launch
import CargoStylus.Guest
import CargoStylus.ReplayCommand
import CargoStylus.NodeCall
import CargoStylus.CheckRun
import CargoStylus.SharedChain
import CargoStylus.LoneRun
import CargoStylus.ChainOutcome
import CargoStylus.Cache
import CargoStylus.Wallet
