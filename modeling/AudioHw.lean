import AudioHw.Config
import AudioHw.Pacing
import AudioHw.Provider
import AudioHw.InputBuffer
import AudioHw.Device
import AudioHw.Calls
import AudioHw.Routing
import AudioHw.Mixer
import AudioHw.LockOrder
import AudioHw.OutputStream
import AudioHw.Deadlock
import AudioHw.InputStream
import AudioHw.Position
import AudioHw.Progress
