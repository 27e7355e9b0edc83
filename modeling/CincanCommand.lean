import CincanCommand.CommandLog
import CincanCommand.Source
import CincanCommand.Inspector.Dependency
import CincanCommand.Inspector.Fan
import CincanCommand.Inspector.Termination
import CincanCommand.Inspector.DepthFirst
import CincanCommand.Inspector.Unfolding
import CincanCommand.Inspector.Digests
import CincanCommand.Inspector.Render
import CincanCommand.Frontend.Stream
import CincanCommand.Frontend.Exec
import CincanCommand.Frontend.Runs
import CincanCommand.Frontend.Log
import CincanCommand.Main
