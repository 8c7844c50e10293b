import UwavClient.Library.Program
import UwavClient.Library.RelyGuarantee
import UwavClient.Library.Raising
import UwavClient.Library.Schedule
import UwavClient.Library.Machine
import UwavClient.Library.Circular
import UwavClient.Library.PacedQueue
import UwavClient.Library.Reservoir
import UwavClient.Library.Lines
import UwavClient.Library.Binary64
import UwavClient.Ring.Buffer
import UwavClient.Ring.Sample
import UwavClient.Ring.Execution
import UwavClient.Ring.Refinement
import UwavClient.Ring.Queue
import UwavClient.Ring.Threads
import UwavClient.Ring.Traffic
import UwavClient.Ring.Producer
import UwavClient.Ring.Consumer
import UwavClient.Ring.Sharing
import UwavClient.Ring.Prefill
import UwavClient.Ring.LostUpdate
import UwavClient.Audio.Stream
import UwavClient.Audio.Playback
import UwavClient.Audio.Selection
import UwavClient.Audio.Pairing
import UwavClient.Client.Threads
import UwavClient.Client.Capture
import UwavClient.Client.Session
import UwavClient.Client.Conversion
import UwavClient.Client.DeviceMirror
import UwavClient.Config.Interrupted
import UwavClient.Config.ClientId
import UwavClient.Client.InputLoops
import UwavClient.Client.Received
import UwavClient.Ring.Source
import UwavClient.Client.MessageSafety
import UwavClient.Client.Stopping
import UwavClient.Client.Cancellation
import UwavClient.Client.MicrophoneSwap
import UwavClient.Audio.Gate
import UwavClient.Audio.Unplugging
import UwavClient.Client.ModelMenu
import UwavClient.Config.NewFile
import UwavClient.Config.SavedValues
import UwavClient.Config.Grammar
import UwavClient.Config.History
import UwavClient.Config.Restart
import UwavClient.Library.JsonRoundTrip
import UwavClient.Socket.Awaiting
import UwavClient.Socket.Events
import UwavClient.Socket.Connections
import UwavClient.Socket.Settled
import UwavClient.Socket.Closing
import UwavClient.Socket.Announcing
import UwavClient.Client.Broadcast
import UwavClient.Client.Uplink
