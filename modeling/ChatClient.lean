import ChatClient.Accounting
import ChatClient.Exchange.Answer
import ChatClient.Main
import ChatClient.Proofs.BaseUrl
import ChatClient.Proofs.CallArguments
import ChatClient.Proofs.CallIndex
import ChatClient.Proofs.DemandDriven
import ChatClient.Proofs.DumpStability
import ChatClient.Proofs.EndMark
import ChatClient.Proofs.EventReading
import ChatClient.Proofs.FinishReasons
import ChatClient.Proofs.FirstSetup
import ChatClient.Proofs.GeneratorLayers
import ChatClient.Proofs.IndexedCalls
import ChatClient.Proofs.KeyStability
import ChatClient.Proofs.LiveMerge
import ChatClient.Proofs.MergedStream
import ChatClient.Proofs.OptionTools
import ChatClient.Proofs.Ownership
import ChatClient.Proofs.PartialReduction
import ChatClient.Proofs.Precedence
import ChatClient.Proofs.ReducedWindow
import ChatClient.Proofs.SchemaText
import ChatClient.Proofs.SettingsHistory
import ChatClient.Proofs.StreamContinuation
import ChatClient.Proofs.StreamReading
import ChatClient.Proofs.StreamedCall
import ChatClient.Proofs.Transcript
import ChatClient.Record.Depth
import ChatClient.Settings.Cache
